import HostBridge.Proofs.Dict.Canonical
import HostBridge.Proofs.Ownership.Lending
import HostBridge.Proofs.Roster.Membership

/-!
# Building

Encoding builds: it takes references to what it has been lent, places data and wrappers made of what
it holds, and gives up again what it holds if it fails.  It changes nothing that was there before it
began.  Its steps are few of those that operations take, and what is said here of `Build` and `Builds`
would not hold of a path of any steps.

So when all that was built has been given up, the world is as it was.
-/

namespace HostBridge

/-- Values, and containers of what is handed over. -/
def Body.Data : Body → Prop
  | .int _ | .float _ | .complex _ _ | .text _ | .bytes _ | .list _ | .tuple _ | .dict _ => True
  | _ => False

/-- What is built: data, and wrappers that own their values. -/
def Body.Built : Body → Prop
  | .instance _ (some (.wrapper _ (.owned _))) => True
  | body => body.Data

theorem Body.Data.plain {program : Program} {body : Body} (data : body.Data) :
    body.Plain program := by
  cases body <;> trivial

theorem Body.Data.built {body : Body} (data : body.Data) : body.Built := by
  cases body <;> trivial

section

variable (program : Program) (lent : Ref → Prop)

/-- One step of building, from a world and the references that are held to another world and other
references. -/
inductive Build : World → Multiset Ref → World → Multiset Ref → Prop
  | note {world : World} {held : Multiset Ref} (level : Level) (text : String) :
    Build world held (world.note level text) held
  /-- Take a reference to what is lent, or one more to what is held. -/
  | retain {world : World} {held left : Multiset Ref} (ref : Ref)
      (used : ref.place < world.heap.size) (found : lent ref ∨ ref ∈ held)
      (taken : left = held + {ref}) : Build world held (world.retain ref) left
  | lower {world : World} {held left : Multiset Ref} (ref : Ref) {cell : Cell}
      (there : world.heap.cell? ref = some cell) (shared : 1 < cell.count)
      (given : held = left + {ref}) :
    Build world held
      { world with heap := world.heap.put ref (some { cell with count := cell.count - 1 }) } left
  | forget {world : World} {held left : Multiset Ref} (ref : Ref)
      (gone : world.heap.cell? ref = none) (given : held = left + {ref}) :
    Build world held world left
  | retire {world : World} {held left : Multiset Ref} (ref : Ref) {cell : Cell}
      (rest : Multiset Ref) (there : world.heap.cell? ref = some cell) (last : cell.count ≤ 1)
      (given : held = rest + {ref}) (taken : left = rest + cell.body.references) :
    Build world held (world.retire ref cell.body) left
  /-- Place data that is made of what is held. -/
  | place {world : World} {held left : Multiset Ref} (body : Body) (rest : Multiset Ref)
      (data : body.Data) (admits : world.heap.Admits body) (given : held = rest + body.references)
      (taken : left = rest + {world.heap.next}) :
    Build world held (world.place body).2 left
  /-- Make a wrapper of a value whose references are held. -/
  | enter {world : World} {held left : Multiset Ref} (registry : RegistryId) (type : Ref)
      (value : HostValue) (rest : Multiset Ref)
      (shows : world.heap.Shows program registry type (.owned value))
      (given : held = rest + (value.references ++ [type] : List Ref))
      (taken : left = rest + {world.heap.next}) :
    Build world held (world.enter registry type (.owned value)) left

/-- A sequence of steps of building. -/
inductive Builds : World → Multiset Ref → World → Multiset Ref → Prop
  | refl (world : World) (held : Multiset Ref) : Builds world held world held
  | step {first second third : World} {given held left : Multiset Ref}
      (builds : Builds first given second held) (last : Build program lent second held third left) :
    Builds first given third left

end

variable {program : Program} {lent : Ref → Prop}

theorem Build.step {before after : World} {held left : Multiset Ref}
    (build : Build program lent before held after left) (touch : Permission) :
    Step program touch before held after left := by
  cases build with
  | note level text => exact .settle (.of_registries rfl rfl (le_refl _)) rfl
  | retain ref used found taken => exact .retain ref used taken
  | lower ref there shared given => exact .lower ref there shared given
  | forget ref gone given => exact .forget ref gone given
  | retire ref rest there last given taken => exact .retire ref rest there last given taken
  | place body rest data admits given taken => exact .place body rest data.plain given taken
  | enter registry type value rest shows given taken =>
    exact .wrap registry type (.owned value) rest shows given taken

/-- What other code holds takes no part in a step of building. -/
theorem Build.frame {before after : World} {held left : Multiset Ref}
    (build : Build program lent before held after left) (frame : Multiset Ref) :
    Build program lent before (held + frame) after (left + frame) := by
  cases build with
  | note level text => exact .note level text
  | retain ref used found taken =>
    exact .retain ref used (found.imp_right fun inside => Multiset.mem_add.mpr (.inl inside))
      (by rw [taken]; abel)
  | lower ref there shared given => exact .lower ref there shared (by rw [given]; abel)
  | forget ref gone given => exact .forget ref gone (by rw [given]; abel)
  | retire ref rest there last given taken =>
    exact .retire ref (rest + frame) there last (by rw [given]; abel) (by rw [taken]; abel)
  | place body rest data admits given taken =>
    exact .place body (rest + frame) data admits (by rw [given]; abel) (by rw [taken]; abel)
  | enter registry type value rest shows given taken =>
    exact .enter registry type value (rest + frame) shows (by rw [given]; abel)
      (by rw [taken]; abel)

namespace Builds

variable {first second third : World} {given held left : Multiset Ref}

theorem single (build : Build program lent first given second held) :
    Builds program lent first given second held :=
  .step (.refl first given) build

theorem trans (front : Builds program lent first given second held)
    (back : Builds program lent second held third left) :
    Builds program lent first given third left := by
  induction back with
  | refl => exact front
  | step _ last ih => exact .step (ih front) last

theorem frame (builds : Builds program lent first given second held) (frame : Multiset Ref) :
    Builds program lent first (given + frame) second (held + frame) := by
  induction builds with
  | refl => exact .refl _ _
  | step _ last ih => exact .step ih (last.frame frame)

theorem path (builds : Builds program lent first given second held) (touch : Permission) :
    Path program touch first given second held := by
  induction builds with
  | refl => exact .refl _ _
  | step _ last ih => exact .step ih (last.step touch)

/-- Building keeps the heap canonical. -/
theorem canonical (builds : Builds program lent first given second held)
    (canonical : first.Canonical) : second.Canonical := by
  induction builds with
  | refl => exact canonical
  | step _ last ih =>
    cases last with
    | note | forget => exact ih
    | retain ref used found taken => exact Heap.Canonical.retain ih ref
    | lower ref there shared given =>
      exact Heap.Canonical.put ih _ there fun _ same => by cases same; rfl
    | retire ref rest there last given taken =>
      rw [World.Canonical, World.heap_retire]
      exact Heap.Canonical.put ih none there (by simp)
    | place body rest data admits given taken => exact ih.place admits
    | enter registry type value rest shows given taken =>
      exact Heap.Canonical.push ih ⟨by simp, by simp⟩

end Builds

/-! ## What building leaves alone -/

namespace World

/-- All of a world that building does not concern: its objects, rosters and log apart. -/
def backdrop (world : World) :
    Array Registry × Array Interpreter × Option InterpreterId × Environment × Array Event :=
  (world.registries.map fun entry => { entry with roster := .empty }, world.interpreters,
    world.current, world.environment, world.events)

/-- A world that building has led to from `base`, with the references that are held. -/
structure Underlies (base : World) (lent : Ref → Prop) (world : World) (held : Multiset Ref) :
    Prop where
  /-- Objects that were there are there with the same contents. -/
  old : ∀ ref, ref.place < base.heap.size →
    (world.heap.cell? ref).map (·.body) = (base.heap.cell? ref).map (·.body)
  /-- New objects are made of older ones, which are new as well or were lent. -/
  new : ∀ ref cell, base.heap.size ≤ ref.place → world.heap.cell? ref = some cell →
    cell.body.Built ∧ ∀ inner ∈ cell.body.references,
      inner.place < ref.place ∧ (lent inner ∨ base.heap.size ≤ inner.place)
  held : ∀ ref ∈ held, lent ref ∨ base.heap.size ≤ ref.place
  places : base.heap.size ≤ world.heap.size
  backdrop : world.backdrop = base.backdrop

theorem Underlies.refl (base : World) (lent : Ref → Prop) : base.Underlies lent base 0 where
  old _ _ := rfl
  new ref cell fresh there := absurd (Heap.place_lt_size there) (Nat.not_lt.mpr fresh)
  held ref member := by simp at member
  places := le_refl _
  backdrop := rfl

variable {world base : World}

/-- Changes of rosters are not seen. -/
theorem backdrop_updateRegistry (world : World) (id : RegistryId) {change : Registry → Registry}
    (same : ∀ entry, { change entry with roster := .empty } = { entry with roster := .empty }) :
    (world.updateRegistry id change).backdrop = world.backdrop := by
  have entries : (world.registries.modify id.number change).map
      (fun entry => { entry with roster := .empty }) =
        world.registries.map fun entry => { entry with roster := .empty } := by
    refine Array.ext (by simp) fun place inside _ => ?_
    rw [Array.getElem_map, Array.getElem_map, Array.getElem_modify]
    split
    · exact same _
    · rfl
  rw [backdrop, backdrop, updateRegistry, entries]

theorem claims_of_backdrop (same : world.backdrop = base.backdrop) :
    world.claims = base.claims := by
  obtain ⟨entries, interpreters, _⟩ := Prod.mk.inj same |>.imp_right Prod.mk.inj
  have types := congrArg (fun found : Array Registry =>
    (found.toList.map fun entry => ((entry.types.map (·.2) : List Ref) : Multiset Ref)).sum) entries
  simp only [Array.toList_map, List.map_map] at types
  rw [claims, claims, interpreters]
  exact congrArg (· + _) types

theorem registry_of_backdrop (same : world.backdrop = base.backdrop) (id : RegistryId) :
    (world.registry id).owners = (base.registry id).owners ∧
      (world.registry id).bridged = (base.registry id).bridged ∧
        (world.registry id).types = (base.registry id).types := by
  have entries := congrArg (fun found : Array Registry => found[id.number]?)
    (Prod.mk.inj same).1
  simp only [Array.getElem?_map] at entries
  rw [registry, registry]
  cases mine : world.registries[id.number]? <;> cases its : base.registries[id.number]? <;>
    simp_all

theorem size_registries_of_backdrop (same : world.backdrop = base.backdrop) :
    world.registries.size = base.registries.size := by
  have sizes := congrArg Array.size (Prod.mk.inj same).1
  rwa [Array.size_map, Array.size_map] at sizes

/-- Registries are the same if each of them is. -/
theorem registries_ext (size : world.registries.size = base.registries.size)
    (same : ∀ id, world.registry id = base.registry id) : world.registries = base.registries := by
  refine Array.ext size fun place inside inside' => ?_
  have entry := same ⟨place⟩
  rwa [registry, registry, Array.getElem?_eq_getElem inside, Array.getElem?_eq_getElem inside']
    at entry

/-- What is built goes away without a report. -/
theorem backdrop_retire (wired : world.Wired program) {ref : Ref} {cell : Cell}
    (there : world.heap.cell? ref = some cell) (built : cell.body.Built) :
    (world.retire ref cell.body).backdrop = world.backdrop := by
  unfold Body.Built at built
  split at built
  · rename_i type registry value body
    obtain ⟨⟨bridged, shape, _⟩, _⟩ :=
      wired.wrapper ref type registry _ ((Heap.body_eq there).trans body)
    obtain ⟨_, typeBody, typeThere, contents, context⟩ := Heap.bridgedType?_eq_some.mp shape
    have reading := (Heap.body_eq typeThere).trans contents
    obtain ⟨_, _, _, _, _, _, _, rfl⟩ := wired.type type typeBody reading bridged context
    have unlinked : (world.updateRegistry registry
        (.updateRoster (·.unlink ref))).backdrop = world.backdrop :=
      world.backdrop_updateRegistry registry
        (Registry.read_updateRoster (fun entry => { entry with roster := .empty }) (fun _ _ => rfl) _)
    rw [body, retire, finalizeInstance, reading]
    exact unlinked
  · have alone : world.retire ref cell.body = { world with heap := world.heap.put ref none } := by
      unfold retire
      split
      · rename_i body
        rw [body] at built
        exact built.elim
      · rfl
    rw [alone]
    rfl

end World

end HostBridge
