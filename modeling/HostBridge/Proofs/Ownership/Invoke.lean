import HostBridge.Bridge.Invoke
import HostBridge.Proofs.Ownership.Encode
import HostBridge.Proofs.Ownership.Host

/-!
# Contracts of running host code

A routine runs to its end, and what it has obtained from callbacks is held until
then.  A slot takes no references and hands over one, that to its result; a slot
that fails hands over nothing.
-/

namespace HostBridge

variable {program : Program} {touch : Permission} {world : World}

/-- A call takes no references and hands over one, that to its result. -/
def Callback.Counts (program : Program) (touch : Permission) (callback : Callback) : Prop :=
  ∀ callee arguments world, callee.place < world.heap.size →
    (∀ ref ∈ arguments, ref.place < world.heap.size) →
      Op.Runs program touch (callback callee arguments) world 0 (fun ref => {ref}) fun _ _ => True

namespace Op

variable {callback : Callback} {remains : HostValue → Prop} {type : HostType}

/-- What holds of the end of a routine. -/
structure Ended (program : Program) (remains : HostValue → Prop) (type : HostType)
    (outcome : Outcome) (after : World) : Prop where
  left : remains outcome.subject
  used : ∀ ref ∈ outcome.subject.references, ref.place < after.heap.size
  result : ∀ value, outcome.result = .ok value → value.Valid program after.heap type

theorem runs_runRoutine (calls : Callback.Counts program touch callback) {routine : Routine}
    {places : Nat} (honest : routine.Honest program remains type places) :
    ∀ (world : World) (held : List Ref), world.heap.size = places →
      Runs program touch (runRoutine callback held routine) world held (fun ended => ended.2)
        fun ended after => Ended program remains type ended.1 after := by
  induction honest with
  | ended left used fit resultUsed =>
    rintro world held rfl
    exact .pure rfl ⟨left, used, fun value same => ⟨fit value same, resultUsed value same⟩⟩
  | @makeText places text resume later ih =>
    rintro world held rfl
    have plain : (Body.text text).Plain program := trivial
    have made : Path program touch world held (world.place (.text text)).2
        (held + {world.heap.next}) := path_placeScalar plain rfl held
    refine .path_bind (run_place world _) made fun leads => ?_
    have placed : (world.place (.text text)).1.place < (world.place (.text text)).2.heap.size := by
      show world.heap.size < (world.heap.push _).size
      rw [Heap.size_push]
      exact Nat.lt_succ_self _
    have rest := ih _ _ leads.grows.places placed _ (held ++ [world.heap.next]) rfl
    rwa [← Multiset.coe_add, Multiset.coe_singleton] at rest
  | @call places callee arguments resume calleeUsed used returned raised ihReturned ihRaised =>
    rintro world held rfl
    intro frame sound
    have run := calls callee arguments world calleeUsed used (held + frame) (by rwa [zero_add])
    rw [runRoutine, run_ofFunction]
    rcases ended : (callback callee arguments).run world with ⟨result, after⟩
    rw [ended] at run
    cases result with
    | ok ref =>
      have path : Path program touch world held after (held + {ref}) := by
        have framed : Path program touch world (0 + held) after ({ref} + held) := run.1.frame held
        rwa [zero_add, add_comm ({ref} : Multiset Ref)] at framed
      have sound' : after.Sound program (held + {ref} + frame) := (path.frame frame).sound sound
      have there : ref.place < after.heap.size := sound'.used_of_held (by simp)
      have rest := ihReturned after.heap ref path.grows.places there after (held ++ [ref]) rfl
      rw [← Multiset.coe_add, Multiset.coe_singleton] at rest
      have last := rest frame sound'
      dsimp only
      split at last
      · exact ⟨path.trans last.1, last.2⟩
      · exact path.trans last
    | error fault =>
      have path : Path program touch world held after held := by
        have framed := run.frame held
        rwa [zero_add] at framed
      cases fault with
      | raised exception =>
        have last := ihRaised after.heap exception path.grows.places after held rfl frame
          ((path.frame frame).sound sound)
        dsimp only
        split at last
        · exact ⟨path.trans last.1, last.2⟩
        · exact path.trans last
      | _ => exact path.trans (path_releaseAll after held)

/-! ## Host code -/

/-- A result that is not there has no objects. -/
def resultReferences : Except String HostValue → List Ref
  | .ok value => value.references
  | .error _ => []

/-- A result that is not there may stand for any. -/
def ResultFits (program : Program) (type : HostType) : Except String HostValue → Prop
  | .ok value => value.fits program type = true
  | .error _ => True

/-- A way to keep what host code leaves behind: it takes over an adopted value,
in any world that the code leads to, and it cannot fail. -/
structure Stores (program : Program) (touch : Permission) (remains : HostValue → Prop)
    (store : HostValue → Op Unit) (before : World) : Prop where
  runs : ∀ value kept world, World.Leads program touch before world → remains value →
    (∀ type, kept.fits program type = value.fits program type) →
      Runs program touch (store kept) world kept.references (fun _ => 0) fun _ _ => True
  sure : ∀ value world, ∃ ended after, (store value).run world = (.ok ended, after)

/-- Adopting a value, then an operation. -/
theorem Runs.adopt_bind {α : Type} {value : HostValue} {held : Multiset Ref}
    {next : HostValue → Op α} {given : α → Multiset Ref} {post : α → World → Prop}
    (used : ∀ ref ∈ value.references, ref.place < world.heap.size)
    (later : ∀ adopted after, World.Leads program touch world after →
      (∀ type, adopted.fits program type = value.fits program type) →
      Runs program touch (next adopted) after (held + adopted.references) given post) :
    Runs program touch (adopt value >>= next) world held given post := by
  have adopting : Makes program touch (adopt value) world [] HostValue.references
      fun adopted _ => ∀ type, adopted.fits program type = value.fits program type :=
    makes_adopt used
  obtain ⟨adopted, after, ended, makes, fits⟩ := adopting
  exact .path_bind ended (makes.path_new held) fun leads => later adopted after leads fits

/-- Adopting the values of a list, then an operation. -/
theorem Runs.adoptAll_bind {α : Type} {types : List HostType} {values : List HostValue}
    {next : List HostValue → Op α} {given : α → Multiset Ref} {post : α → World → Prop}
    (valid : HostValue.ValidAll program world.heap types values)
    (later : ∀ adopted after, world.Extends after → World.Leads program touch world after →
      HostValue.fitsAll program types adopted = true →
      Runs program touch (next adopted) after (HostValue.referencesAll adopted) given post) :
    Runs program touch (adoptAll values >>= next) world 0 given post := by
  have adopting : Makes program touch (adoptAll values) world [] HostValue.referencesAll
      fun adopted _ => ∀ types, HostValue.fitsAll program types adopted =
        HostValue.fitsAll program types values := makes_adoptAll valid.2
  obtain ⟨adopted, after, ended, makes, fits⟩ := adopting
  have path := makes.path_new 0
  rw [zero_add] at path
  exact .path_bind ended path fun leads =>
    later adopted after makes.more leads (by rw [fits]; exact valid.1)

/-- What comes after a routine has ended and its result has been adopted. -/
theorem runs_settle {remains : HostValue → Prop} {before : World} {subject : HostValue}
    {held passed : List Ref}
    {store : HostValue → Op Unit} {result : Except String HostValue} {type : HostType}
    (stores : Stores program touch remains store before)
    (leads : World.Leads program touch before world) (left : remains subject)
    (used : ∀ ref ∈ subject.references, ref.place < world.heap.size)
    (fit : ResultFits program type result) {taken : Multiset Ref}
    (spent : taken = resultReferences result + passed + held) :
    Runs program touch
      (do
        store (← adopt subject)
        releaseAll held
        releaseAll passed
        match result with
        | .ok result => return result
        | .error message => panic (.hostCode message))
      world taken (fun value => value.references)
      fun value _ => value.fits program type = true := by
  rw [spent]
  refine .adopt_bind used fun kept second leads' fits => ?_
  have storing := (stores.runs subject kept second (leads.trans leads') left fits).frame
    (resultReferences result + passed + held) (stores.sure kept second)
  rw [zero_add, add_comm] at storing
  refine storing.bind fun _ third _ _ => ?_
  refine .path_bind (run_releaseAll third held) (.releaseAll third held _) fun _ => ?_
  refine .path_bind (run_releaseAll _ passed) (.releaseAll _ passed _) fun _ => ?_
  cases result with
  | ok value => exact .pure rfl fit
  | error message => exact .panic _

theorem runs_perform {callback : Callback} {remains : HostValue → Prop} {type : HostType}
    {parameters : List HostType} {run : Behaviour} {subject : HostValue}
    {arguments : List HostValue} {store : HostValue → Op Unit}
    (calls : Callback.Counts program touch callback)
    (honest : run.Honest program remains parameters type) (left : remains subject)
    (used : ∀ ref ∈ subject.references, ref.place < world.heap.size)
    (fit : HostValue.fitsAll program parameters arguments = true)
    (stores : Stores program touch remains store world) :
    Runs program touch (perform callback run subject arguments store) world
      (HostValue.referencesAll arguments) (fun value => value.references)
      fun value _ => value.fits program type = true := by
  refine .assuming fun frame sound => .heap_bind ?_
  have valid : HostValue.ValidAll program world.heap parameters arguments :=
    ⟨fit, fun ref member => sound.used_of_held (by simp [member])⟩
  have routine := (runs_runRoutine calls (honest world.heap subject arguments left used valid)
    world [] rfl).undoing fun after =>
      path_releaseAll after (HostValue.referencesAll arguments)
  rw [Multiset.coe_nil, zero_add] at routine
  refine routine.bind ?_
  rintro ⟨outcome, held⟩ middle leads ended
  dsimp only at ended ⊢
  cases result : outcome.result with
  | ok value =>
    refine .adopt_bind (ended.result value result).used fun adopted second leads' fits => ?_
    have fit : ResultFits program type (.ok adopted) := by
      rw [ResultFits, fits]
      exact (ended.result value result).fit
    refine runs_settle stores (leads.trans leads') ended.left (leads'.usedAll ended.used) fit ?_
    rw [resultReferences]
    abel
  | error message =>
    have fit : ResultFits program type (.error message) := trivial
    refine runs_settle stores leads ended.left ended.used fit ?_
    rw [resultReferences, Multiset.coe_nil, zero_add, add_comm]

/-! ## Keeping what is left behind -/

theorem stores_discard (remains : HostValue → Prop) (before : World) :
    Stores program touch remains discard before :=
  ⟨fun _ kept _ _ _ _ => runs_discard kept, fun _ _ => ⟨(), _, rfl⟩⟩

theorem sure_exchange (ref : Ref) (inner : List Nat) (new : HostValue) (world : World) :
    ∃ ended after, (exchange ref inner new).run world = (.ok ended, after) := by
  rw [exchange, Operation.run_bind_of_ok (run_heap world)]
  cases world.heap.wrapper? ref with
  | none => exact ⟨(), _, rfl⟩
  | some parts =>
    dsimp only
    split
    · exact ⟨(), _, rfl⟩
    · exact ⟨(), _, rfl⟩

/-- A value of its struct may replace the whole one behind a wrapper. -/
theorem stores_exchange {ref : Ref} {content : Held} {bridged : BridgedType} {before : World}
    (values : ∀ type registry value, touch (.instance type (some (.wrapper registry (.owned value)))))
    (wrapper : before.heap.wrapper? ref = some (content, bridged)) :
    Stores program touch (fun value => value.fits program (.struct bridged.host) = true)
      (exchange ref []) before where
  runs := by
    intro value kept world leads fit fits
    refine runs_exchange values fun content' bridged' wrapper' => ?_
    obtain ⟨rfl, _⟩ := leads.same_wrapper wrapper wrapper'
    exact ⟨_, Program.typeAt?_nil _, by rw [fits]; exact fit⟩
  sure := sure_exchange ref []

theorem sure_storeCaptured (owner : Ref) (slot : Nat) (captured : HostValue) (world : World) :
    ∃ ended after, (storeCaptured owner slot captured).run world = (.ok ended, after) := by
  rw [storeCaptured]
  dsimp only
  rw [Operation.run_bind_of_ok (run_heap world)]
  split
  · split
    · exact ⟨(), _, rfl⟩
    · exact ⟨(), _, rfl⟩
  · exact ⟨(), _, rfl⟩
  · exact ⟨(), _, rfl⟩

/-- The slot of a function with another captured state. -/
def recaptured (captured : HostValue) (entry : Slot) : Slot :=
  match entry.role with
  | .function code _ => { entry with role := .function code captured }
  | _ => entry

theorem mem_references_recaptured {captured : HostValue} {entry : Slot} {ref : Ref}
    (member : ref ∈ (recaptured captured entry).references) :
    ref ∈ captured.references ∨ ref ∈ entry.references := by
  unfold recaptured at member
  split at member
  · exact .inl member
  · exact .inr member

theorem mem_references_modify {captured : HostValue} {slots : List Slot} {slot : Nat} {ref : Ref}
    (member : ref ∈ (slots.modify slot (recaptured captured)).flatMap Slot.references) :
    ref ∈ captured.references ∨ ref ∈ slots.flatMap Slot.references := by
  obtain ⟨entry, among, inside⟩ := List.mem_flatMap.mp member
  obtain ⟨place, bound, reading⟩ := List.mem_iff_getElem.mp among
  rw [List.getElem_modify] at reading
  have within : place < slots.length := by simpa using bound
  have old : slots[place] ∈ slots := List.getElem_mem within
  split at reading
  · rw [← reading] at inside
    exact (mem_references_recaptured inside).imp_right fun kept =>
      List.mem_flatMap.mpr ⟨_, old, kept⟩
  · rw [← reading] at inside
    exact .inr (List.mem_flatMap.mpr ⟨_, old, inside⟩)

/-- A function stays the one that it is whatever it has captured. -/
theorem continues_recaptured (entry : Slot) (captured : HostValue) :
    entry.Continues (recaptured captured entry) := by
  unfold recaptured
  split
  · rename_i code old role
    exact .inr ⟨code, old, captured, role, rfl⟩
  · exact .refl entry

theorem continues_modify {contents : ModuleBody} {registry : RegistryId} {slots : List Slot}
    (state : contents.state = some (.slotTable registry slots)) (slot : Nat)
    (captured : HostValue) :
    contents.Continues { contents with
      state := some (.slotTable registry (slots.modify slot (recaptured captured))) } := by
  refine ⟨rfl, fun old given => ?_⟩
  rw [state, Option.some.injEq] at given
  subst given
  refine ⟨_, rfl, _, rfl, fun id entry found => ?_⟩
  rw [List.getElem?_modify, found]
  by_cases same : slot = id
  · exact ⟨_, by simp [same], continues_recaptured entry captured⟩
  · exact ⟨_, by simp [same], .refl entry⟩

theorem runs_storeCaptured (free : ∀ body, touch body) {owner : Ref} {slot : Nat}
    {captured : HostValue}
    (used : ∀ ref ∈ captured.references, ref.place < world.heap.size) :
    Runs program touch (storeCaptured owner slot captured) world 0 (fun _ => 0)
      fun _ _ => True := by
  refine .assuming fun frame sound => .heap_bind ?_
  cases reading : world.heap.body owner with
  | module contents =>
    dsimp only
    split
    · rename_i registry slots state
      have continues := continues_modify state slot captured
      refine runs_replace_body reading (by simp) (free _) (.module continues) fun inner member => ?_
      rcases List.mem_append.mp member with global | new
      · refine sound.used_of_body owner ?_
        rw [reading]
        exact List.mem_append_left _ global
      · rcases mem_references_modify new with kept | old
        · exact used inner kept
        · refine sound.used_of_body owner ?_
          rw [reading]
          refine List.mem_append_right _ ?_
          rw [state]
          exact old
    · exact .pure rfl trivial
  | capsule name payload =>
    cases payload with
    | adHoc registry entry =>
      refine runs_replace_body reading (by simp) (free _)
        (.capsule name registry (continues_recaptured entry captured)) ?_
      intro inner member
      rcases mem_references_recaptured member with kept | old
      · exact used inner kept
      · refine sound.used_of_body owner ?_
        rw [reading]
        exact old
    | _ => exact .pure rfl trivial
  | _ => exact .pure rfl trivial

/-- The captured state of a function is kept in the slot that it came from. -/
theorem stores_captured (free : ∀ body, touch body) (owner : Ref) (slot : Nat)
    (remains : HostValue → Prop) (before : World) :
    Stores program touch remains
      (fun value => do
        storeCaptured owner slot value
        discard value) before where
  runs := by
    intro value kept world _ _ _
    refine .assuming fun frame sound => ?_
    have storing : Runs program touch (storeCaptured owner slot kept) world 0 (fun _ => 0)
        fun _ _ => True :=
      runs_storeCaptured free fun ref member => sound.used_of_held (by simp [member])
    have framed := storing.frame kept.references (sure_storeCaptured owner slot kept world)
    rw [zero_add] at framed
    exact framed.bind fun _ after _ _ => runs_discard kept
  sure := by
    intro value world
    obtain ⟨ended, after, stored⟩ := sure_storeCaptured owner slot value world
    exact ⟨(), _, by rw [Operation.run_bind_of_ok stored]; rfl⟩

end Op

/-! ## Slots -/

namespace Program

open Op

theorem fitsAll_append {types types' : List HostType} {values values' : List HostValue}
    (front : HostValue.fitsAll program types values = true)
    (back : HostValue.fitsAll program types' values' = true) :
    HostValue.fitsAll program (types ++ types') (values ++ values') = true := by
  induction types generalizing values with
  | nil =>
    cases values with
    | nil => exact back
    | cons value values => cases front
  | cons type types ih =>
    cases values with
    | nil => cases front
    | cons value values =>
      simp only [HostValue.fitsAll, Bool.and_eq_true] at front
      simp only [List.cons_append, HostValue.fitsAll, Bool.and_eq_true]
      exact ⟨front.1, ih front.2⟩

/-- Decoded arguments are values of the types of their parameters. -/
theorem valid_decodeArguments {held : Multiset Ref} (founded : program.Founded)
    (sound : world.Sound program held) {registry : RegistryId} {types : List HostType}
    {refs : List Ref} {values : List HostValue} (count : refs.length = types.length)
    (used : ∀ ref ∈ refs, ref.place < world.heap.size)
    (read : program.decodeArguments world.heap registry types refs = .ok values) :
    HostValue.ValidAll program world.heap types values := by
  induction types generalizing refs values with
  | nil =>
    cases read
    exact HostValue.validAll_nil
  | cons type types ih =>
    cases refs with
    | nil => cases count
    | cons ref refs =>
      rw [decodeArguments] at read
      split at read
      · rename_i value decoded
        obtain ⟨_, first, later⟩ := Refusal.exists_of_bind_eq_ok read
        cases first
        obtain ⟨rest, last, same⟩ := Refusal.exists_of_bind_eq_ok later
        cases same
        refine HostValue.validAll_cons.mpr ⟨?_, ?_⟩
        · exact Decode.valid_fresh founded sound (used ref (by simp)) decoded
        · exact ih (by simpa using count) (fun other member => used other (by simp [member])) last
      · cases read
      · cases read
      · cases read

/-- How the arguments of a slot are found: its parameters are split, the number
of arguments is right, and a last parameter for keyword arguments gets a dict. -/
theorem arguments_eq_ok {heap : Heap} {registry : RegistryId} {slot : Slot}
    {positional : List Ref} {keywords : Option Ref} {values : List HostValue}
    (read : program.arguments heap registry slot positional keywords = .ok values) :
    let parameters := program.slotParameters slot
    let given := keywords.filter fun dict => 0 < heap.dictSize dict
    positional.length = (splitKeywords parameters).1.length ∧
      ((splitKeywords parameters).2 = false → given = none) ∧
      ∃ decoded, program.decodeArguments heap registry (splitKeywords parameters).1 positional =
          .ok decoded ∧
        values = if (splitKeywords parameters).2 then decoded ++ [.keywords given] else decoded := by
  intro parameters given
  rw [arguments] at read
  rcases split : splitKeywords parameters with ⟨types, collects⟩
  rw [split] at read
  dsimp only at read ⊢
  split at read
  · cases read
  · rename_i count
    split at read
    · cases read
    · rename_i unwanted
      obtain ⟨decoded, made, last⟩ := Refusal.exists_of_bind_eq_ok read
      cases last
      refine ⟨not_not.mp count, fun plain => ?_, decoded, made, rfl⟩
      rw [plain, Bool.not_false, Bool.and_true, Option.isSome_iff_ne_none] at unwanted
      exact not_not.mp unwanted

/-- The arguments of a slot are values of the types of its parameters. -/
theorem valid_arguments {held : Multiset Ref} (founded : program.Founded)
    (sound : world.Sound program held) {registry : RegistryId} {slot : Slot}
    {positional : List Ref} {keywords : Option Ref} {values : List HostValue}
    (used : ∀ ref ∈ positional, ref.place < world.heap.size)
    (keywordsUsed : ∀ ref ∈ keywords, ref.place < world.heap.size)
    (read : program.arguments world.heap registry slot positional keywords = .ok values) :
    HostValue.ValidAll program world.heap (program.slotParameters slot) values := by
  obtain ⟨count, _, decoded, made, same⟩ := arguments_eq_ok read
  have valid := valid_decodeArguments founded sound count used made
  rw [same]
  unfold splitKeywords at valid ⊢
  split
  · rename_i last
    rw [if_pos last] at valid
    have whole : program.slotParameters slot =
        (program.slotParameters slot).dropLast ++ [.keywords] :=
      (List.dropLast_append_getLast? HostType.keywords last).symm
    rw [if_pos rfl, whole]
    refine ⟨fitsAll_append valid.1 rfl, fun ref member => ?_⟩
    rw [HostValue.referencesAll_append, List.mem_append] at member
    rcases member with old | new
    · exact valid.2 ref old
    · rw [HostValue.referencesAll, HostValue.referencesAll, List.append_nil] at new
      exact keywordsUsed ref (Option.mem_filter_iff.mp (Option.mem_toList.mp new)).1
  · rename_i plain
    rw [if_neg plain] at valid
    exact valid

/-- What is called suits where it is called: a method belongs to the struct of
the wrapper, and what a function has captured has places. -/
structure Suits (world : World) (slot : Slot) (site : CallSite) : Prop where
  method : ∀ owner index ref content bridged, slot.role = .method owner index →
    site = .wrapper ref → world.heap.wrapper? ref = some (content, bridged) → bridged.host = owner
  captured : ∀ ref ∈ slot.references, ref.place < world.heap.size

/-- The object for an owned value, which is let go. -/
theorem runs_encodeOwned {registry : RegistryId} {type : HostType} {value : HostValue}
    (fit : value.fits program type = true) :
    Runs program touch
      ((Encode.value program registry type value).always (·.releaseAll value.references)) world
      value.references (fun ref => {ref}) fun _ _ => True := by
  refine .assuming fun frame sound => ?_
  have made : Runs program touch (Encode.value program registry type value) world 0
      (fun ref => {ref}) fun _ _ => True :=
    Encode.runs_value type value fit fun ref member => sound.used_of_held (by simp [member])
  have run : Runs program touch
      ((Encode.value program registry type value).always (·.releaseAll value.references)) world
      (0 + value.references) (fun ref => {ref}) fun _ _ => True :=
    made.always (fun after => path_releaseAll after value.references) fun _ _ _ _ _ => trivial
  rwa [zero_add] at run

theorem runs_invoke (honest : program.Honest) (free : ∀ body, touch body) {callback : Callback}
    (calls : Callback.Counts program touch callback) {registry : RegistryId} {slot : Slot}
    {site : CallSite} {positional : List Ref} {keywords : Option Ref}
    (suits : Suits world slot site)
    (used : ∀ ref ∈ positional, ref.place < world.heap.size)
    (keywordsUsed : ∀ ref ∈ keywords, ref.place < world.heap.size) :
    Runs program touch
      (program.invoke callback registry slot site positional keywords) world 0 (fun ref => {ref})
      fun _ _ => True := by
  refine .assuming fun frame sound => .heap_bind (.ofExcept_bind fun values read => ?_)
  have valid := valid_arguments honest.founded sound used keywordsUsed read
  cases role : slot.role with
  | method owner index =>
    cases site with
    | holder ref => exact .raise _
    | wrapper ref =>
      dsimp only
      cases wrapped : world.heap.wrapped? ref with
      | none => exact .raise _
      | some parts =>
        obtain ⟨receiver, bridged⟩ := parts
        obtain ⟨content, wrapper⟩ := Heap.wrapper?_of_wrapped? wrapped
        have host := suits.method owner index ref content bridged role rfl wrapper
        have behind := Decode.valid_wrapped? sound wrapped
        rw [host] at behind
        rw [slotParameters, role] at valid
        refine .adoptAll_bind valid fun adopted after more leads fit => ?_
        refine (runs_perform calls (honest.method owner index) behind.fit
          (leads.usedAll behind.used) fit ?_).bind fun result _ _ fit => runs_encodeOwned fit
        split
        · have exchange : Stores program touch
              (fun value => value.fits program (.struct bridged.host) = true)
              (Op.exchange ref []) after :=
            stores_exchange (fun _ _ _ => free _) (more.wrapper? wrapper)
          rwa [host] at exchange
        · exact stores_discard _ _
  | function code captured =>
    rw [slotParameters, role] at valid
    have places := suits.captured
    rw [Slot.references, role] at places
    refine .adoptAll_bind valid fun adopted after more leads fit => ?_
    refine (runs_perform calls (honest.function code) trivial (leads.usedAll places) fit ?_).bind
      fun result _ _ fit => runs_encodeOwned fit
    split
    · exact stores_discard _ _
    · exact stores_discard _ _
    · exact stores_captured free _ _ _ _
  | construct code => exact .raise _
  | get owner index => exact .raise _
  | set owner index => exact .raise _

end Program

end HostBridge
