import HostBridge.Proofs.Publishing.Graph
import HostBridge.Proofs.Session.Reachable

/-!
# The two maps of a registry

One map of a registry leads from host structs to the handles of their heap types, the other
one from heap types to what connects them to host structs.  The second map has no reference
to a heap type: it goes by the address, and the address of what has gone away may be given
to another object.  Both maps describe the same types all the same.  They are changed
together only, and the first one keeps every object alive whose address is a key.
-/

namespace HostBridge

variable {program : Program} {touch : Permission}

namespace Registry

/-- Both maps describe the same types, each for one host struct. -/
structure Matched (registry : Registry) : Prop where
  same : registry.types = registry.bridged.map fun entry => (entry.2.host, entry.1)
  hosts : (registry.types.map Prod.fst).Nodup
  handles : registry.handles.Nodup

/-- The map from the addresses of heap types. -/
def keyed (registry : Registry) (address : Ref → Nat) : List (Nat × BridgedType) :=
  registry.bridged.map fun entry => (address entry.1, entry.2)

variable {registry : Registry}

theorem matched_of_empty (bridged : registry.bridged = []) (types : registry.types = []) :
    registry.Matched where
  same := by rw [types, bridged, List.map_nil]
  hosts := by simp [types]
  handles := by simp [handles, types]

namespace Matched

theorem congr (matched : registry.Matched) {other : Registry}
    (bridged : other.bridged = registry.bridged) (types : other.types = registry.types) :
    other.Matched where
  same := by rw [types, bridged, matched.same]
  hosts := by rw [types]; exact matched.hosts
  handles := by rw [Registry.handles, types]; exact matched.handles

/-- A new type for a struct that has none is entered into both maps. -/
theorem enroll (matched : registry.Matched) {handle : Ref} {bridged : BridgedType}
    (unknown : registry.handle? bridged.host = none)
    (fresh : ∀ entry ∈ registry.types, entry.2 ≠ handle) :
    (registry.enroll handle bridged).Matched where
  same := by simp [Registry.enroll, matched.same]
  hosts := by
    rw [Registry.enroll, List.map_append, List.nodup_append']
    refine ⟨matched.hosts, List.nodup_singleton _, List.disjoint_singleton.mpr fun taken => ?_⟩
    obtain ⟨entry, member, host⟩ := List.mem_map.mp taken
    exact bne_iff_ne.mp (List.lookup_eq_none_iff.mp unknown entry member) host.symm
  handles := by
    rw [Registry.handles, Registry.enroll, List.map_append, List.nodup_append']
    refine ⟨matched.handles, List.nodup_singleton _, List.disjoint_singleton.mpr fun taken => ?_⟩
    obtain ⟨entry, member, same⟩ := List.mem_map.mp taken
    exact fresh entry member same

/-- A handle is found for a struct if it is entered for that. -/
theorem handle?_eq_some (matched : registry.Matched) {host : StructId} {handle : Ref} :
    registry.handle? host = some handle ↔ (host, handle) ∈ registry.types :=
  ⟨mem_types_of_handle?, lookup_of_mem matched.hosts⟩

/-- What is entered for a struct in one map is entered for its handle in the other one. -/
theorem handle?_of_mem (matched : registry.Matched) {handle : Ref} {bridged : BridgedType}
    (member : (handle, bridged) ∈ registry.bridged) :
    registry.handle? bridged.host = some handle := by
  rw [matched.handle?_eq_some, matched.same]
  exact List.mem_map.mpr ⟨_, member, rfl⟩

theorem exists_bridged (matched : registry.Matched) {host : StructId} {handle : Ref}
    (found : registry.handle? host = some handle) :
    ∃ bridged, (handle, bridged) ∈ registry.bridged ∧ bridged.host = host := by
  rw [matched.handle?_eq_some, matched.same] at found
  obtain ⟨⟨handle, bridged⟩, member, same⟩ := List.mem_map.mp found
  obtain ⟨rfl, rfl⟩ := Prod.mk.inj same
  exact ⟨bridged, member, rfl⟩

/-- No two structs share a handle. -/
theorem host_unique (matched : registry.Matched) {host other : StructId} {handle : Ref}
    (found : registry.handle? host = some handle) (found' : registry.handle? other = some handle) :
    host = other :=
  congrArg Prod.fst (List.inj_on_of_nodup_map matched.handles (matched.handle?_eq_some.mp found)
    (matched.handle?_eq_some.mp found') rfl)

/-- The keys of the second map are the registered handles, each of them once. -/
theorem keys (matched : registry.Matched) :
    (registry.bridged.map Prod.fst).Nodup := by
  have handles := matched.handles
  rwa [Registry.handles, matched.same, List.map_map] at handles

/-- A registered handle is what has a key in the second map. -/
theorem isHandle_iff (matched : registry.Matched) {ref : Ref} :
    registry.isHandle ref = true ↔ ∃ host, registry.handle? host = some ref := by
  rw [isHandle, bridged?, Option.isSome_iff_exists]
  constructor
  · rintro ⟨bridged, found⟩
    obtain ⟨front, back, split, _⟩ := List.lookup_eq_some_iff.mp found
    exact ⟨bridged.host, matched.handle?_of_mem (by simp [split])⟩
  · rintro ⟨host, found⟩
    obtain ⟨bridged, member, _⟩ := matched.exists_bridged found
    exact ⟨bridged, lookup_of_mem matched.keys member⟩

end Matched

end Registry

/-! ## Steps -/

namespace World

/-- In every registry the maps describe the same types, and they describe them as they are. -/
structure Matched (world : World) : Prop where
  registry : ∀ id, (world.registry id).Matched
  shape : ∀ id, ∀ entry ∈ (world.registry id).bridged,
    world.heap.bridgedType? entry.1 = some entry.2 ∧ entry.2.registry = id

/-- What a step does to the maps of a registry. -/
inductive Remaps (before after : World) (id : RegistryId) : Prop
  | kept (bridged : (after.registry id).bridged = (before.registry id).bridged)
      (types : (after.registry id).types = (before.registry id).types)
  | emptied (bridged : (after.registry id).bridged = []) (types : (after.registry id).types = [])
  | entered {handle : Ref} {bridged : BridgedType} (same : after.heap = before.heap)
      (owner : bridged.registry = id)
      (shape : before.heap.bridgedType? handle = some bridged)
      (unknown : (before.registry id).handle? bridged.host = none)
      (fresh : ∀ entry ∈ (before.registry id).types, entry.2 ≠ handle)
      (changed : after.registry id = (before.registry id).enroll handle bridged)

theorem matched_initial : World.initial.Matched where
  registry _ := Registry.matched_of_empty rfl rfl
  shape _ _ member := by cases member

end World

variable {before after : World} {held left : Multiset Ref}

/-- Every step changes both maps or none. -/
theorem Step.remaps (step : Step program touch before held after left) (id : RegistryId) :
    before.Remaps after id := by
  cases step with
  | settle settles even => exact .kept (settles.bridged id) (settles.types id)
  | retain | lower | forget | place | rewrite => exact .kept rfl rfl
  | retire ref rest there last given taken =>
    exact .kept (World.read_retire Registry.bridged (fun _ _ => rfl) before ref _ id)
      (World.read_retire Registry.types (fun _ _ => rfl) before ref _ id)
  | wrap registry type content rest shows given taken =>
    exact .kept (World.read_updateRegistry Registry.bridged (before.place _).2 registry id
      (Registry.bridged_updateRoster _))
      ((before.place _).2.types_updateRegistry registry id (Registry.types_updateRoster _))
  | scatter registry owners permitted =>
    exact .kept (World.read_updateRegistry Registry.bridged before registry id fun _ => rfl)
      (before.types_updateRegistry registry id fun _ => rfl)
  | enroll handle created shape unknown fresh given =>
    rcases before.registry_updateRegistry _ id (.enroll handle _) with kept | ⟨owner, changed⟩
    · exact .kept (by rw [kept]) (by rw [kept])
    · subst owner
      exact .entered rfl rfl shape unknown fresh changed
  | withdraw registry taken =>
    rcases before.registry_updateRegistry registry id _ with kept | ⟨_, changed⟩
    · exact .kept (by rw [kept]) (by rw [kept])
    · exact .emptied (by rw [changed]) (by rw [changed])

/-- Every step keeps the maps matched: what has a key is kept alive by the other map. -/
theorem Step.matched (step : Step program touch before held after left)
    (balanced : before.Balanced held) (matched : before.Matched) : after.Matched where
  registry id := by
    have earlier := matched.registry id
    cases step.remaps id with
    | kept bridged types => exact earlier.congr bridged types
    | emptied bridged types => exact Registry.matched_of_empty bridged types
    | entered same owner shape unknown fresh changed =>
      rw [changed]
      exact earlier.enroll unknown fresh
  shape id := by
    intro entry member
    cases step.remaps id with
    | kept bridged types =>
      rw [bridged] at member
      obtain ⟨shape, owner⟩ := matched.shape id entry member
      have registered : (entry.2.host, entry.1) ∈ (after.registry id).types := by
        rw [types, (matched.registry id).same]
        exact List.mem_map_of_mem member
      refine ⟨step.keeps_type 0 (by rwa [add_zero]) shape ?_, owner⟩
      simp [World.mem_claims registered]
    | emptied bridged types =>
      rw [bridged] at member
      cases member
    | @entered handle bridged same owner shape unknown fresh changed =>
      rw [changed] at member
      rw [same]
      rcases List.mem_append.mp member with old | new
      · exact matched.shape id entry old
      · rw [List.mem_singleton.mp new]
        exact ⟨shape, owner⟩

theorem Path.matched (path : Path program touch before held after left)
    (sound : before.Sound program held) (matched : before.Matched) : after.Matched := by
  induction path with
  | refl => exact matched
  | step front last ih => exact last.matched (front.sound sound).balanced (ih sound)

/-- The maps are matched in all worlds that sessions reach. -/
theorem Session.matched (honest : program.Honest) {world : World}
    (session : Session program world held) : world.Matched := by
  induction session with
  | initial => exact World.matched_initial
  | @request _ _ rest _ request earlier allowed run ih =>
    have path := (Session.path_request honest (earlier.sound honest) allowed run).frame rest
    exact path.matched (earlier.sound honest) ih

/-! ## Addresses -/

namespace World

/--
The maps of a registry are inverse to each other if heap types are told apart by their
addresses: the type for a struct is there, and its address leads back to the struct; every
address that is a key is that of one handle, and no two structs share a handle.
-/
structure Bijective (world : World) (address : Ref → Nat) (id : RegistryId) : Prop where
  once : (((world.registry id).keyed address).map Prod.fst).Nodup
  typed : ∀ host handle, (world.registry id).handle? host = some handle →
    world.heap.holds handle = true ∧ ∃ bridged,
      ((world.registry id).keyed address).lookup (address handle) = some bridged ∧
        world.heap.bridgedType? handle = some bridged ∧ bridged.host = host ∧
          bridged.registry = id
  keyed : ∀ key bridged, ((world.registry id).keyed address).lookup key = some bridged →
    ∃ handle, (world.registry id).handle? bridged.host = some handle ∧ address handle = key ∧
      ∀ host other, (world.registry id).handle? host = some other → address other = key →
        other = handle
  apart : ∀ host other handle, (world.registry id).handle? host = some handle →
    (world.registry id).handle? other = some handle → host = other

variable {world : World} {address : Ref → Nat} {id : RegistryId}

namespace Matched

/-- A heap type that is registered is there. -/
theorem holds (matched : world.Matched) {entry : Ref × BridgedType}
    (member : entry ∈ (world.registry id).bridged) : world.heap.holds entry.1 = true := by
  obtain ⟨cell, _, there, _⟩ := Heap.bridgedType?_eq_some.mp (matched.shape id entry member).1
  simp [Heap.holds, there]

/-- Types that are there have different addresses. -/
theorem nodup_keyed (matched : world.Matched)
    (distinct : Set.InjOn address {ref | world.heap.holds ref = true}) :
    (((world.registry id).keyed address).map Prod.fst).Nodup := by
  have keys := (matched.registry id).keys
  rw [Registry.keyed, List.map_map]
  refine List.Nodup.map_on (fun entry member other member' same => ?_) keys.of_map
  have handles := distinct (matched.holds member) (matched.holds member') same
  exact List.inj_on_of_nodup_map keys member member' handles

/-- Looking up an address comes to the same as looking up the object. -/
theorem lookup_keyed (matched : world.Matched)
    (distinct : Set.InjOn address {ref | world.heap.holds ref = true}) {ref : Ref}
    (there : world.heap.holds ref = true) :
    ((world.registry id).keyed address).lookup (address ref) =
      (world.registry id).bridged? ref := by
  cases found : (world.registry id).bridged? ref with
  | some bridged =>
    obtain ⟨front, back, split, _⟩ := List.lookup_eq_some_iff.mp found
    have member : (ref, bridged) ∈ (world.registry id).bridged := by simp [split]
    exact lookup_of_mem (matched.nodup_keyed distinct)
      (List.mem_map.mpr ⟨(ref, bridged), member, rfl⟩)
  | none =>
    refine List.lookup_eq_none_iff.mpr fun key member => bne_iff_ne.mpr fun same => ?_
    obtain ⟨entry, inside, rfl⟩ := List.mem_map.mp member
    have twin := distinct there (matched.holds inside) same
    exact bne_iff_ne.mp (List.lookup_eq_none_iff.mp found entry inside) twin

theorem bijective (matched : world.Matched)
    (distinct : Set.InjOn address {ref | world.heap.holds ref = true}) :
    world.Bijective address id where
  once := matched.nodup_keyed distinct
  typed host handle found := by
    obtain ⟨bridged, member, same⟩ := (matched.registry id).exists_bridged found
    obtain ⟨shape, owner⟩ := matched.shape id _ member
    refine ⟨matched.holds member, bridged, ?_, shape, same, owner⟩
    rw [matched.lookup_keyed distinct (matched.holds member)]
    exact lookup_of_mem (matched.registry id).keys member
  keyed key bridged found := by
    obtain ⟨front, back, split, _⟩ := List.lookup_eq_some_iff.mp found
    have inside : (key, bridged) ∈ (world.registry id).keyed address := by simp [split]
    obtain ⟨⟨handle, record⟩, member, same⟩ := List.mem_map.mp inside
    obtain ⟨rfl, rfl⟩ := Prod.mk.inj same
    refine ⟨handle, (matched.registry id).handle?_of_mem member, rfl, ?_⟩
    intro host other found' key
    obtain ⟨_, member', _⟩ := (matched.registry id).exists_bridged found'
    exact distinct (matched.holds member') (matched.holds member) key
  apart host other handle := (matched.registry id).host_unique

end Matched

end World

open Program in
/--
In every world that a client comes to or comes by, the two maps of a registry are inverse to
each other, however addresses are given to objects as long as objects that are there at the
same time have different ones.  So an object is found to be bridged, by its address, exactly
if it is a handle that is registered then.
-/
theorem World.Reached.maps_matched (honest : program.Honest) {world : World}
    (reached : world.Reached program held) (bridge : Bridge) {address : Ref → Nat}
    (distinct : Set.InjOn address {ref | world.heap.holds ref = true}) :
    world.Bijective address bridge.registry ∧
      (∀ ref, world.heap.holds ref = true → (isBridged bridge ref).run world =
        (.ok (((world.registry bridge.registry).keyed address).lookup (address ref)).isSome,
          world)) ∧
      ∀ ref, (isBridged bridge ref).run world = (.ok true, world) ↔
        ∃ host, (world.registry bridge.registry).handle? host = some ref := by
  obtain ⟨start, kept, session, path⟩ := reached
  have matched : world.Matched := path.matched (session.sound honest) (session.matched honest)
  have ran : ∀ ref, (isBridged bridge ref).run world =
      (.ok ((world.registry bridge.registry).isHandle ref), world) := fun _ => rfl
  refine ⟨matched.bijective distinct, fun ref there => ?_, fun ref => ?_⟩
  · rw [ran, Registry.isHandle, matched.lookup_keyed distinct there]
  · rw [← (matched.registry bridge.registry).isHandle_iff, ran, Prod.mk.injEq]
    simp

namespace Figures

/-- Requests that register points along with segments, clear the registry, and register points
once more, the last one first. -/
def renewing : List Request :=
  [.registerTypeWith bridge 0 ⟨4⟩ "Point" "", .finalize ⟨0⟩,
    .registerType bridge (.struct ⟨1⟩) ⟨4⟩ "Segment" ""]

/-- The first type of points has gone away, and the second one is where it was. -/
def reusing (ref : Ref) : Nat := if ref = ⟨6⟩ then 7 else ref.place

/-- The world after those requests. -/
def renewed : World := Request.played Figures.program (renewing ++ opening.drop 2)

set_option maxRecDepth 10000 in
theorem playable_renewing : Request.Playable Figures.program (renewing ++ opening.drop 2) := by
  have facts : ((Request.played Figures.program (opening.drop 2)).registries.size,
      ((Request.played Figures.program (renewing.drop 2 ++ opening.drop 2)).interpreter ⟨0⟩).owners,
      (Request.played Figures.program (renewing.drop 1 ++ opening.drop 2)).registries.size) =
        (1, 2, 1) := by cbv
  simp only [Prod.mk.injEq] at facts
  obtain ⟨connected, owned, cleared⟩ := facts
  have nothing : ∀ {used : Ref → Prop}, ∀ ref ∈ ([] : List Ref), used ref :=
    fun _ member => by cases member
  have first : 0 < (Request.played Figures.program (opening.drop 2)).registries.size := by
    rw [connected]
    exact Nat.zero_lt_one
  have two : 0 < ((Request.played Figures.program
      (renewing.drop 2 ++ opening.drop 2)).interpreter ⟨0⟩).owners := by
    rw [owned]
    exact Nat.zero_lt_two
  have second : 0 < (Request.played Figures.program
      (renewing.drop 1 ++ opening.drop 2)).registries.size := by
    rw [cleared]
    exact Nat.zero_lt_one
  exact ⟨⟨⟨playable_opening.1.1, rfl, nothing, first⟩, rfl, nothing, two⟩, rfl, nothing, second⟩

set_option maxRecDepth 10000 in
/-- The type of points is registered for the second time, at the address of the first one. -/
theorem maps_matched_renewed : renewed.heap.holds ⟨6⟩ = false ∧ reusing ⟨7⟩ = reusing ⟨6⟩ ∧
    renewed.Bijective reusing bridge.registry ∧
      (Program.isBridged bridge ⟨7⟩).run renewed = (.ok true, renewed) ∧
      (Program.isBridged bridge ⟨4⟩).run renewed =
        (.ok (((renewed.registry bridge.registry).keyed reusing).lookup 4).isSome, renewed) := by
  have facts : (renewed.heap.holds ⟨6⟩, renewed.heap.holds ⟨4⟩,
      (renewed.registry ⟨0⟩).handle? ⟨0⟩) = (false, true, some ⟨7⟩) := by cbv
  simp only [Prod.mk.injEq] at facts
  obtain ⟨gone, module, again⟩ := facts
  have distinct : Set.InjOn reusing {ref | renewed.heap.holds ref = true} := by
    have apart : ∀ ref, renewed.heap.holds ref = true → reusing ref = ref.place := by
      intro ref there
      refine if_neg ?_
      rintro rfl
      exact Bool.false_ne_true (gone.symm.trans there)
    intro ref there other there' same
    rw [apart ref there, apart other there'] at same
    exact congrArg Ref.mk same
  have reached : renewed.Reached Figures.program
      (Request.kept Figures.program (renewing ++ opening.drop 2)) :=
    ⟨_, _, playable_renewing.session, .refl _ _⟩
  obtain ⟨bijective, found, bridged⟩ := reached.maps_matched Figures.honest bridge distinct
  exact ⟨gone, rfl, bijective, (bridged ⟨7⟩).mpr ⟨⟨0⟩, again⟩, found ⟨4⟩ module⟩

end Figures

end HostBridge
