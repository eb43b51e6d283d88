import HostBridge.Object.Hash
import HostBridge.Proofs.Session.Reachable
import HostBridge.Proofs.Sharing.Values

/-!
# Projections last

The projection of an object is made of what never changes: its kind, its value if
it is a scalar, and the projections of its items if it is a tuple.  Items are
older than the tuple that they are in, so the walk that computes a projection
ends before its depth is used up.  The projection of an object is therefore the
same for as long as the object is there.
-/

namespace HostBridge

variable {program : Program} {touch : Permission}

/-! ## Layers -/

/-- Tuples are younger than their items. -/
def Heap.Layered (heap : Heap) : Prop :=
  ∀ ref items, heap.body ref = .tuple items → ∀ item ∈ items, item.place < ref.place

theorem Heap.layered_initial : Heap.initial.Layered := by
  intro ref items reading
  obtain ⟨cell, present, body⟩ := Heap.exists_cell_of_body reading (by simp)
  rcases Heap.body_of_initial present with nothing | ⟨value, nothing⟩ <;> simp [nothing] at body

/-- A step makes tuples of what is there, and changes none. -/
theorem Step.layered {before after : World} {held left : Multiset Ref}
    (step : Step program touch before held after left) (within : before.Within held)
    (layered : before.heap.Layered) : after.heap.Layered := by
  intro ref items reading item member
  obtain ⟨later, found, body⟩ := Heap.exists_cell_of_body reading (by simp)
  cases there : before.heap.cell? ref with
  | none =>
    obtain ⟨rfl, _, given⟩ := step.evolves.fresh ref later found there
    have held : item ∈ held := given item (by simpa [body, Body.references] using member)
    exact within item (by simp [World.owed, held])
  | some cell =>
    have same : cell.body = .tuple items := by
      rcases step.evolves.kept ref cell there with ⟨_, found', kept | ⟨_, becomes⟩⟩ | ⟨gone, _⟩
      · rw [found, Option.some.injEq] at found'
        subst found'
        exact kept.symm.trans body
      · rw [found, Option.some.injEq] at found'
        subst found'
        rw [body] at becomes
        generalize cell.body = old at becomes
        cases becomes
      · rw [found] at gone
        cases gone
    exact layered ref items ((Heap.body_eq there).trans same) item member

theorem Path.layered {first second : World} {given held : Multiset Ref}
    (path : Path program touch first given second held) (sound : first.Sound program given)
    (layered : first.heap.Layered) : second.heap.Layered := by
  induction path with
  | refl => exact layered
  | step path last ih => exact last.layered (path.sound sound).within (ih sound)

theorem Session.layered (honest : program.Honest) {world : World} {held : Multiset Ref}
    (session : Session program world held) : world.heap.Layered := by
  induction session with
  | initial => exact Heap.layered_initial
  | @request _ _ rest _ request session allowed run ih =>
    have sound := session.sound honest
    exact ((path_request honest sound allowed run).frame rest).layered sound ih

theorem World.Reached.layered (honest : program.Honest) {world : World} {held : Multiset Ref}
    (reached : world.Reached program held) : world.heap.Layered := by
  obtain ⟨_, _, session, path⟩ := reached
  exact path.layered (session.sound honest) (session.layered honest)

/-! ## Kinds -/

/-- What an object is projected by stays: its kind, and its value or its items if these cannot
be changed. -/
def Body.Kindred : Body → Body → Prop
  | .list _, later => ∃ items, later = .list items
  | .dict _, later => ∃ table, later = .dict table
  | .module _, later => ∃ contents, later = .module contents
  | .capsule _ _, later => ∃ name payload, later = .capsule name payload
  | .instance owner _, later => ∃ state, later = .instance owner state
  | body, later => later = body

namespace Body.Kindred

theorem refl (body : Body) : body.Kindred body := by
  cases body <;> simp [Body.Kindred]

end Body.Kindred

theorem Body.Persists.kindred {body later : Body} (persists : body.Persists later) :
    body.Kindred later := by
  unfold Body.Persists at persists
  split at persists
  · exact persists
  · exact persists
  · obtain ⟨contents, same, _⟩ := persists
    exact ⟨contents, same⟩
  · obtain ⟨slot, same, _⟩ := persists
    exact ⟨_, _, same⟩
  · obtain ⟨content, same, _⟩ := persists
    exact ⟨_, same⟩
  · exact persists
  · rw [persists]
    exact .refl _

/-! ## Reading a projection -/

namespace Heap

variable {heap other : Heap}

/-- Two walks find the same projections for the same items. -/
theorem mapM_congr_items {items : List Ref} {front back : Ref → Except Exception Key}
    (same : ∀ item ∈ items, front item = back item) : items.mapM front = items.mapM back := by
  induction items with
  | nil => rfl
  | cons item rest ih =>
    simp only [List.mapM_cons, same item (by simp), ih fun inner member => same inner (by simp [member])]

/-- Objects that stay of their kind have the projections that they had, however deep the walk
may go beyond what it needs. -/
theorem keyWithin_of_kindred (among : Ref → Prop)
    (kindred : ∀ ref, among ref → (heap.body ref).Kindred (other.body ref))
    (closed : ∀ ref items, among ref → heap.body ref = .tuple items → ∀ item ∈ items,
      item.place < ref.place ∧ among item)
    {depth depth' : Nat} {ref : Ref} (member : among ref) (enough : ref.place < depth)
    (enough' : ref.place < depth') : other.keyWithin depth' ref = heap.keyWithin depth ref := by
  -- The walk goes from a tuple to older objects, so the induction is on the depth.
  induction depth generalizing depth' ref with
  | zero => omega
  | succ depth below =>
    obtain ⟨depth', rfl⟩ := Nat.exists_eq_add_of_lt (Nat.zero_lt_of_lt enough')
    rw [zero_add] at enough' ⊢
    have later := kindred ref member
    unfold keyWithin typeName
    cases reading : heap.body ref with
    | tuple items =>
      rw [reading] at later
      rw [show other.body ref = .tuple items from later]
      have same : items.mapM (other.keyWithin depth') = items.mapM (heap.keyWithin depth) := by
        refine mapM_congr_items fun item inside => ?_
        obtain ⟨older, inner⟩ := closed ref items member reading item inside
        exact below inner (by omega) (by omega)
      simp only [same]
    | list | dict | module | «instance» =>
      rw [reading] at later
      obtain ⟨_, same⟩ := later
      rw [same]
    | capsule =>
      rw [reading] at later
      obtain ⟨_, _, same⟩ := later
      rw [same]
    | _ =>
      rw [reading] at later
      rw [show other.body ref = _ from later]

/-- Objects that persist have the projections that they had. -/
theorem keyWithin_of_persists (layered : heap.Layered) (among : Ref → Prop)
    (persists : ∀ ref, among ref → (heap.body ref).Persists (other.body ref))
    (closed : ∀ ref items, among ref → heap.body ref = .tuple items → ∀ item ∈ items, among item)
    {depth depth' : Nat} {ref : Ref} (member : among ref) (enough : ref.place < depth)
    (enough' : ref.place < depth') : other.keyWithin depth' ref = heap.keyWithin depth ref :=
  keyWithin_of_kindred among (fun ref member => (persists ref member).kindred)
    (fun ref items member reading item inside =>
      ⟨layered ref items reading item inside, closed ref items member reading item inside⟩)
    member enough enough'

end Heap

/-! ## Projections along a path -/

namespace Path

variable {first second : World} {given held : Multiset Ref}

/-- An item of a tuple is there for as long as the tuple is. -/
theorem item_present (path : Path program touch first given second held)
    (sound : first.Sound program given) {ref item : Ref} {items : List Ref} {cell later : Cell}
    (reading : first.heap.body ref = .tuple items) (member : item ∈ items)
    (there : first.heap.cell? item = some cell) (stays : second.heap.cell? ref = some later) :
    ∃ cell, second.heap.cell? item = some cell := by
  obtain ⟨start, present, body⟩ := Heap.exists_cell_of_body reading (by simp)
  induction path generalizing later with
  | refl => exact ⟨cell, there⟩
  | @step middle _ _ _ _ path last ih =>
    have used : ref.place < middle.heap.size :=
      Nat.lt_of_lt_of_le (Heap.place_lt_size present) path.grows.places
    obtain ⟨between, found⟩ := (Path.single last).present used stays
    obtain ⟨inner, inside⟩ := ih sound found
    have same : between.body = .tuple items := by
      have persists := path.persists present found
      rwa [body] at persists
    have owned : item ∈ middle.heap.owned :=
      Heap.mem_owned found (by simpa [same, Body.references] using member)
    have balanced := ((path.frame 0).sound (by rwa [add_zero])).balanced
    obtain ⟨outer, outside, _⟩ := last.survives 0 balanced inside (.inl (by simp [owned]))
    exact ⟨outer, outside⟩

/-- An object that does not go away keeps its projection. -/
theorem same_key (path : Path program touch first given second held)
    (sound : first.Sound program given) (layered : first.heap.Layered) {ref : Ref}
    (used : ref.place < first.heap.size)
    (stays : first.heap.holds ref = true → second.heap.holds ref = true) :
    second.heap.key ref = first.heap.key ref := by
  have places := path.grows.places
  refine Heap.keyWithin_of_persists layered (fun ref =>
    ref.place < first.heap.size ∧ (first.heap.holds ref = true → second.heap.holds ref = true))
    ?_ ?_ ⟨used, stays⟩ (by omega) (by omega)
  · rintro ref ⟨used, stays⟩
    cases there : first.heap.cell? ref with
    | some cell =>
      obtain ⟨later, found⟩ := Option.isSome_iff_exists.mp (stays (by simp [Heap.holds, there]))
      rw [Heap.body_eq there, Heap.body_eq found]
      exact path.persists there found
    | none =>
      rw [Heap.body, Heap.body, there, path.stays_gone used there]
      exact .refl _
  · rintro ref items ⟨_, stays⟩ reading item member
    obtain ⟨cell, present, body⟩ := Heap.exists_cell_of_body reading (by simp)
    obtain ⟨later, found⟩ := Option.isSome_iff_exists.mp (stays (by simp [Heap.holds, present]))
    have owned : item ∈ first.heap.owned :=
      Heap.mem_owned present (by simpa [body, Body.references] using member)
    refine ⟨sound.within item (by simp [World.owed, owned]), fun holds => ?_⟩
    obtain ⟨inner, inside⟩ := Option.isSome_iff_exists.mp holds
    exact Option.isSome_iff_exists.mpr (path.item_present sound reading member inside found)

end Path

end HostBridge
