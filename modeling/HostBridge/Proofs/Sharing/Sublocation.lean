import Mathlib
import HostBridge.Proofs.Sharing.Chain

/-!
# Aliases share sub-locations

A write through a wrapper changes the value of one root at one place.  Every
wrapper on that root shows the change as far as it concerns its own path: all of
its part if it lies inside the place, a part of its part if it lies around it,
and nothing if the two lie apart.  Wrappers on other roots show what they showed.
-/

namespace HostBridge

open Op

variable {program : Program} {held : Multiset Ref}

/-! ## Changes of one place -/

/-- The value of a root is changed at a place, and every wrapper shows it so. -/
structure World.Changed (before after : World) (root : Ref) (place : List Nat)
    (old new : HostValue) : Prop where
  value : ∃ whole, before.heap.ownedValue? root = some whole ∧ whole.at? place = some old ∧
    after.heap.ownedValue? root = some (whole.put place new) ∧
    ∀ path, HostValue.Apart place path → (whole.put place new).at? path = whole.at? path
  shown : ∀ ref path part, before.Denotes ref root path part → after.heap.holds ref = true →
    ∃ part', after.Denotes ref root path part' ∧
      (∀ rest, path = place ++ rest → new.at? rest = some part') ∧
      (∀ rest, place = path ++ rest → part' = part.put rest new) ∧
      (HostValue.Apart place path → part' = part)
  elsewhere : ∀ ref other path part, other ≠ root → before.Denotes ref other path part →
    after.heap.holds ref = true → after.Denotes ref other path part

/-- A wrapper that is still there denotes the same path of the same root. -/
theorem World.Denotes.persists {before after : World} {ref root : Ref} {path : List Nat}
    {part : HostValue} (leads : World.Leads program Permission.anything before after)
    (wired : after.Wired program) (denotes : before.Denotes ref root path part)
    (present : after.heap.holds ref = true) : ∃ part', after.Denotes ref root path part' := by
  obtain ⟨content, bridged, _, wrapper, location, _⟩ := denotes
  obtain ⟨later, found⟩ := Option.isSome_iff_exists.mp present
  obtain ⟨content', wrapper', same⟩ := leads.wrapper_of_present wired wrapper found
  have denotes' := wired.denotes wrapper'
  rwa [same, location] at denotes'

namespace World.Denotes

variable {world : World} {ref root : Ref} {path : List Nat} {part : HostValue}

/-- What is denoted is the part of the root's value at the path. -/
theorem at? (denotes : world.Denotes ref root path part) {value : HostValue}
    (owned : world.heap.ownedValue? root = some value) : value.at? path = some part := by
  obtain ⟨_, _, value', _, _, owned', present, _⟩ := denotes
  rw [owned, Option.some.injEq] at owned'
  rwa [owned']

theorem exists_ownedValue? (denotes : world.Denotes ref root path part) :
    ∃ value, world.heap.ownedValue? root = some value := by
  obtain ⟨_, _, value, _, _, owned, _⟩ := denotes
  exact ⟨value, owned⟩

end World.Denotes

/-- A write changes one place, and every wrapper shows it so. -/
theorem World.Writes.changed {before after : World} {given left : Multiset Ref} {root : Ref}
    {place : List Nat} {whole old new : HostValue}
    (writes : before.Writes program given after left root place new)
    (wired : after.Wired program) (owned : before.heap.ownedValue? root = some whole)
    (present : whole.at? place = some old) (alive : after.heap.holds root = true) :
    before.Changed after root place old new := by
  obtain ⟨cell, found⟩ := Option.isSome_iff_exists.mp alive
  have written := writes.written whole cell owned found
  refine ⟨⟨whole, owned, present, written, fun path => whole.at?_put_apart new⟩, ?_, ?_⟩
  · intro ref path part denotes there
    obtain ⟨part', denotes'⟩ := denotes.persists writes.leads wired there
    have before := denotes.at? owned
    have after := denotes'.at? written
    refine ⟨part', denotes', ?_, ?_, ?_⟩
    · rintro rest rfl
      rw [← HostValue.at?_put_inside new rest present, after]
    · rintro rest rfl
      rw [HostValue.at?_put_around rest new before, Option.some.injEq] at after
      exact after.symm
    · intro apart
      rw [whole.at?_put_apart new apart, before, Option.some.injEq] at after
      exact after.symm
  · intro ref other path part distinct denotes there
    obtain ⟨part', denotes'⟩ := denotes.persists writes.leads wired there
    obtain ⟨value, ownedBefore⟩ := denotes.exists_ownedValue?
    obtain ⟨later, ownedAfter⟩ := denotes'.exists_ownedValue?
    obtain ⟨otherCell, _, _, otherFound, _⟩ := Heap.ownedValue?_eq_some.mp ownedAfter
    have kept := writes.others distinct ownedBefore otherFound
    have same := denotes'.at? kept
    rw [denotes.at? ownedBefore, Option.some.injEq] at same
    rwa [same]

/-! ## Mutations -/

/-- What a client can do to the value behind a wrapper. -/
inductive Mutation where
  /-- Assign to an attribute. -/
  | assign (name : String) (value : Ref)
  /-- Call a method by its name. -/
  | callMethod (name : String) (positional : List Ref)
  /-- Call a method that has been read as an attribute before. -/
  | callBound (function : Ref) (positional : List Ref)
  /-- Change the value in place. -/
  | update (bridge : Bridge) (type : HostType) (change : HostValue → HostValue)

namespace Mutation

/-- The request for a mutation. -/
def request (self : Ref) : Mutation → Request
  | assign name value => .setAttribute self name value
  | callMethod name positional => .callMethod self name positional
  | callBound function positional => .call function positional none
  | update bridge type change => .updateBehind bridge type self change

/-- The place that a mutation writes, as seen from the wrapper: the field of a
name, or the value as a whole. -/
def Concerns (program : Program) (world : World) (held : Multiset Ref) (self : Ref)
    (bridged : BridgedType) : Mutation → List Nat → Prop
  | assign name _, inner => ∃ index, program.fieldNamed? bridged.host name = some index ∧
      inner = [index]
  | callMethod name _, inner => inner = [] ∧ ∃ index,
      program.fieldNamed? bridged.host name = none ∧
      program.methodNamed? bridged.host name = some index ∧
      (program.method bridged.host index).receiver = .exclusive ∧
      (program.method bridged.host index).run.Quiet
  | callBound function _, inner => inner = [] ∧ function ∈ held ∧ ∃ slot index,
      world.heap.body function =
        .function (program.definition (.slot slot.id) slot) (.bound self) ∧
      bridged.slots[slot.id]? = some slot ∧ slot.role = .method bridged.host index ∧
      (program.method bridged.host index).receiver = .exclusive ∧
      (program.method bridged.host index).run.Quiet
  | update _ _ _, inner => inner = []

/-- What a mutation leaves at the place that it writes.  A call leaves whatever
the host code does. -/
def Leaves (program : Program) (world : World) (bridged : BridgedType)
    (result : Except Fault (List Ref)) (old new : HostValue) : Mutation → Prop
  | assign name value => result = .ok [] → ∃ index decoded,
      program.fieldNamed? bridged.host name = some index ∧
      Decode.value program world.heap bridged.registry (program.field bridged.host index).type
        value old = .ok decoded ∧ new = copied decoded world
  | update bridge type change => bridged.registry = bridge.registry →
      type = .struct bridged.host → new = copied (change old) world
  | callMethod _ _ | callBound _ _ => True

end Mutation

/-- What follows an operation without another change of the world. -/
theorem Op.ends_of_bind_pure {α β : Type} {action : Op α} {wrap : α → β} {world after final : World}
    {outcome : Except Fault α} {result : Except Fault β}
    (ended : action.run world = (outcome, final))
    (ran : (action >>= fun value => pure (wrap value)).run world = (result, after)) :
    result = outcome.map wrap ∧ after = final := by
  cases outcome with
  | error fault =>
    rw [Operation.run_bind_of_error ended] at ran
    obtain ⟨rfl, rfl⟩ := Prod.mk.inj ran
    exact ⟨rfl, rfl⟩
  | ok value =>
    rw [Operation.run_bind_of_ok ended] at ran
    obtain ⟨rfl, rfl⟩ := Prod.mk.inj ran
    exact ⟨rfl, rfl⟩

theorem eq_ok_of_toOption {α : Type} {result : Except Fault α} {value : α}
    (given : result.toOption = some value) : result = .ok value := by
  cases result with
  | ok held => exact congrArg Except.ok (Option.some.inj given)
  | error fault => cases given

/-- A client comes to hold the object that a request ends with. -/
theorem gained_single (outcome : Except Fault Ref) :
    gained (outcome.map fun ref => [ref]) = handed (fun ref => {ref}) outcome := by
  cases outcome <;> rfl

/-- A client comes to hold nothing if a request does not end with an object. -/
theorem gained_none {α : Type} (outcome : Except Fault α) :
    gained (outcome.map fun _ => []) = 0 := by
  cases outcome <;> rfl

/-- A mutation writes the place that it concerns. -/
theorem Mutation.writes (honest : program.Honest) {world : World}
    (sound : world.Sound program held) {self : Ref} (member : self ∈ held) {mutation : Mutation}
    (allowed : (mutation.request self).Allowed program world) {content : Held}
    {bridged : BridgedType} (wrapper : world.heap.wrapper? self = some (content, bridged))
    {inner : List Nat} (concerns : mutation.Concerns program world held self bridged inner)
    {result : Except Fault (List Ref)} {after : World}
    (ran : ((mutation.request self).run program).run world = (result, after)) :
    ∃ part old new, world.heap.wrapped? self = some (part, bridged) ∧ part.at? inner = some old ∧
      world.Writes program 0 after (gained result) (Heap.location self content).1
        ((Heap.location self content).2 ++ inner) new ∧
      mutation.Leaves program world bridged result old new := by
  obtain ⟨used, permitted⟩ := allowed
  obtain ⟨whole, wrapped, _⟩ := sound.wired.exists_wrapped? wrapper
  cases mutation with
  | assign name value =>
    obtain ⟨index, named, rfl⟩ := concerns
    rcases assigned : (program.setAttribute self name value).run world with ⟨outcome, final⟩
    obtain ⟨part, old, new, wrapped, field, writes, left⟩ :=
      program.setAttribute_writes honest sound (used value (by simp [request, Request.borrowed]))
        wrapper named assigned
    have inside : part.at? [index] = some old := by
      rw [HostValue.at?, field]
      rfl
    refine ⟨part, old, new, wrapped, inside, ?_⟩
    change (program.setAttribute self name value >>= fun _ => pure []).run world = _ at ran
    cases outcome with
    | error fault =>
      rw [Operation.run_bind_of_error assigned, Prod.mk.injEq] at ran
      obtain ⟨rfl, rfl⟩ := ran
      exact ⟨writes, fun succeeded => by cases succeeded⟩
    | ok _ =>
      rw [Operation.run_bind_of_ok assigned] at ran
      obtain ⟨rfl, rfl⟩ := Prod.mk.inj ran
      obtain ⟨decoded, read, same⟩ := left rfl
      exact ⟨writes, fun _ => ⟨index, decoded, named, read, same⟩⟩
  | callMethod name positional =>
    obtain ⟨rfl, index, plain, named, exclusive, quiet⟩ := concerns
    rcases called : (program.callMethod self name positional).run world with ⟨outcome, final⟩
    obtain ⟨new, writes⟩ := program.callMethod_writes honest sound member wrapper plain named
      exclusive quiet (fun ref inside => used ref (by simp [request, Request.borrowed, inside])) called
    obtain ⟨rfl, rfl⟩ := ends_of_bind_pure called ran
    refine ⟨whole, whole, new, wrapped, rfl, ?_, trivial⟩
    rwa [List.append_nil, gained_single]
  | callBound function positional =>
    obtain ⟨rfl, functionHeld, slot, index, body, place, role, exclusive, quiet⟩ := concerns
    rcases called : (program.call function positional none).run world with ⟨outcome, final⟩
    obtain ⟨new, writes⟩ := program.call_writes honest sound functionHeld member wrapper body place
      role exclusive quiet (fun ref inside => used ref (by simp [request, Request.borrowed, inside]))
      called
    obtain ⟨rfl, rfl⟩ := ends_of_bind_pure called ran
    refine ⟨whole, whole, new, wrapped, rfl, ?_, trivial⟩
    rwa [List.append_nil, gained_single]
  | update bridge type change =>
    obtain rfl := concerns
    rcases updated : (Program.updateBehind bridge type self change).run world with ⟨outcome, final⟩
    obtain ⟨part, new, wrapped, writes, left⟩ :=
      Program.updateBehind_writes sound permitted wrapper updated
    obtain ⟨rfl, rfl⟩ := ends_of_bind_pure updated ran
    refine ⟨part, part, new, wrapped, rfl, ?_, left⟩
    rwa [List.append_nil, gained_none]

theorem Mutation.spent_request (mutation : Mutation) (self : Ref) :
    (mutation.request self).spent = 0 := by
  cases mutation <;> rfl

/-! ## The theorem -/

/--
Aliasing is sharing of sub-locations.  A wrapper that has been read through fields
of registered structs denotes the path of these fields inside the value of its
root, and goes on doing so while the client holds it, whatever else is let go or
cleared.  A mutation through any wrapper changes the value of the root at the
place that it concerns and nowhere else, and all wrappers show the change.
-/
theorem Session.aliases_shareSublocations (honest : program.Honest) :
    (∀ root path ref world held, Chain program root path ref world held →
      Session program world held ∧ ∃ part, world.Denotes ref root path part) ∧
    (∀ root path ref before after rest result, ∀ request : Request,
      Chain program root path ref before (request.spent + rest) → ref ∈ rest →
      request.Allowed program before → (request.run program).run before = (result, after) →
        Chain program root path ref after (gained result + rest)) ∧
    (∀ root path self part bridged before after held inner result, ∀ mutation : Mutation,
      Session program before held → self ∈ held → before.Denotes self root path part →
      before.heap.wrapped? self = some (part, bridged) →
      (mutation.request self).Allowed program before →
      mutation.Concerns program before held self bridged inner →
      ((mutation.request self).run program).run before = (result, after) →
        Session program after (gained result + held) ∧ ∃ old new, part.at? inner = some old ∧
          mutation.Leaves program before bridged result old new ∧
          before.Changed after root (path ++ inner) old new) := by
  refine ⟨fun root path ref world held chain => chain.session_denotes honest, ?_, ?_⟩
  · intro root path ref before after rest result request chain member allowed run
    exact chain.later_of_held honest member allowed run
  · intro root path self part bridged before after held inner result mutation session member denotes
      wrapped allowed concerns run
    have spent : (mutation.request self).spent + held = held := by
      rw [mutation.spent_request, zero_add]
    have sound := session.sound honest
    have next : Session program after (gained result + held) :=
      .request (mutation.request self) (spent.symm ▸ session) allowed run
    have soundNext := next.sound honest
    obtain ⟨content, bridged', whole, wrapper, location, owned, present, wrapped'⟩ := denotes
    rw [wrapped, Option.some.injEq, Prod.mk.injEq] at wrapped'
    obtain ⟨_, rfl⟩ := wrapped'
    obtain ⟨part', old, new, wrapped', inside, writes, left⟩ :=
      mutation.writes honest sound member allowed wrapper concerns run
    rw [wrapped, Option.some.injEq, Prod.mk.injEq] at wrapped'
    obtain ⟨rfl, _⟩ := wrapped'
    -- The client still holds the wrapper, so its root is alive.
    have taken := path_request honest (spent.symm ▸ sound) allowed run
    obtain ⟨content', wrapper', same⟩ :=
      taken.keeps_wrapper (spent.symm ▸ sound) wrapper member
    obtain ⟨value, rootType, owner, _⟩ := soundNext.wired.location wrapper'
    obtain ⟨cell, _, _, found, _⟩ := Heap.wrapper?_eq_some.mp owner
    rw [same, location] at found
    rw [location] at writes
    have place : whole.at? (path ++ inner) = some old := by
      rw [HostValue.at?_append, present, Option.bind_some, inside]
    exact ⟨next, old, new, inside, left, writes.changed soundNext.wired owned place
      (Option.isSome_iff_exists.mpr ⟨cell, found⟩)⟩

namespace Figures

/-- A segment is made, and a number to write. -/
def drawing : List Request := .create (.int 5) :: .call ⟨6⟩ [] none :: opening

def drawn : World := Request.played Figures.program drawing

/-- The first point of the segment is read, and the segment is let go. -/
def pointed : World :=
  ((Figures.program.getAttribute ⟨7⟩ "start").run drawn).2.release ⟨7⟩

set_option maxRecDepth 10000 in
theorem drawn_eq :
    ((Request.played Figures.program opening).heap.size,
      (((Request.call ⟨6⟩ [] none).run Figures.program).run
        (Request.played Figures.program opening)).1.toOption,
      (drawn.heap.wrapper? ⟨7⟩).map fun (_, bridged) => (bridged.host, bridged.registry),
      drawn.heap.ownedValue? ⟨7⟩, (drawn.registry ⟨0⟩).handle? ⟨0⟩,
      ((Figures.program.getAttribute ⟨7⟩ "start").run drawn).1.toOption,
      Figures.program.fieldNamed? ⟨1⟩ "start", Figures.program.fieldNamed? ⟨0⟩ "x") =
    (7, some [⟨7⟩], some (⟨1⟩, ⟨0⟩),
      some (.struct [.struct [.int 0, .int 0], .struct [.int 0, .int 0]]), some ⟨5⟩, some ⟨9⟩,
      some 0, some 0) := by
  cbv

set_option maxRecDepth 10000 in
theorem pointed_eq :
    (pointed.heap.size,
      (pointed.heap.wrapped? ⟨9⟩).map fun (part, bridged) => (part, bridged.host, bridged.registry),
      ((Figures.program.setAttribute ⟨9⟩ "x" ⟨8⟩).run pointed).1.toOption,
      (Decode.value Figures.program pointed.heap ⟨0⟩ number ⟨8⟩ (.int 0)).toOption) =
    (10, some (.struct [.int 0, .int 0], ⟨0⟩, ⟨0⟩), some (), some (.int 5)) := by
  cbv

theorem playable_drawing : Request.Playable Figures.program drawing := by
  have facts := drawn_eq
  simp only [Prod.mk.injEq] at facts
  have used : ∀ ref ∈ (Request.call ⟨6⟩ [] none).borrowed,
      ref.place < (Request.played Figures.program opening).heap.size := by
    intro ref member
    rw [List.mem_singleton.mp member, facts.1]
    exact Nat.lt_succ_self 6
  exact ⟨⟨playable_opening, rfl, used, trivial⟩, rfl, (fun _ member => by cases member), trivial⟩

/-- The client holds the segment, and more. -/
theorem exists_session_drawn :
    ∃ rest, Session Figures.program drawn ({⟨7⟩} + rest) := by
  have facts := drawn_eq
  simp only [Prod.mk.injEq] at facts
  obtain ⟨_, called, _⟩ := facts
  have session := playable_drawing.session
  rcases result : (((Request.call ⟨6⟩ [] none).run Figures.program).run
    (Request.played Figures.program opening)).1 with fault | refs
  · rw [result] at called
    cases called
  · rw [result] at called
    cases called
    rw [drawing, Request.kept, Request.kept, result, add_left_comm] at session
    exact ⟨_, session⟩

end Figures

open Figures in
/-- The client reads the first point of a segment, lets go of the segment, and
writes a number into the point: the segment is changed there. -/
theorem Session.aliases_shareSublocations_segment :
    ∃ held after, Chain Figures.program ⟨7⟩ [0] ⟨9⟩ pointed held ∧
      Chain Figures.program ⟨7⟩ [0] ⟨9⟩ after held ∧
      pointed.Changed after ⟨7⟩ [0, 0] (.int 0) (.int 5) := by
  obtain ⟨denotes, keeps, mutations⟩ := Session.aliases_shareSublocations Figures.honest
  have drawnFacts := drawn_eq
  have pointedFacts := pointed_eq
  simp only [Prod.mk.injEq, Option.map_eq_some_iff, Prod.exists] at drawnFacts pointedFacts
  obtain ⟨_, _, ⟨content, bridged, wrapper, host, registry⟩, owned, handle, read, start, x⟩ :=
    drawnFacts
  obtain ⟨size, ⟨part, innerType, wrapped, rfl, innerHost, innerRegistry⟩, assigned, decoded⟩ :=
    pointedFacts
  obtain ⟨rest, session⟩ := exists_session_drawn
  -- The point is read from the segment.
  have segment : Chain Figures.program ⟨7⟩ [] ⟨7⟩ drawn ({⟨7⟩} + rest) := .root session owned
  rcases reading : (Figures.program.getAttribute ⟨7⟩ "start").run drawn with ⟨result, shown⟩
  rw [reading] at read
  obtain rfl : result = .ok ⟨9⟩ := eq_ok_of_toOption read
  have point : Chain Figures.program ⟨7⟩ [0] ⟨9⟩ shown ({⟨9⟩} + ({⟨7⟩} + rest)) :=
    segment.field wrapper (by rw [host]; exact start) (by rw [host]; rfl)
      (by rw [registry]; exact handle) reading
  -- The segment is let go.
  have released : pointed = shown.release ⟨7⟩ := by rw [pointed, reading]
  rw [add_left_comm] at point
  have kept := keeps ⟨7⟩ [0] ⟨9⟩ shown pointed ({⟨9⟩} + rest) (.ok []) (.release ⟨7⟩) point
    (by simp) ⟨(fun _ member => by cases member), trivial⟩ (by rw [released]; rfl)
  have none : gained (.ok []) + ({⟨9⟩} + rest) = {⟨9⟩} + rest := zero_add _
  rw [none] at kept
  -- A number is written into the point.
  obtain ⟨session', part, point'⟩ := denotes _ _ _ _ _ kept
  obtain rfl : part = .struct [.int 0, .int 0] := by
    obtain ⟨_, _, _, _, _, _, _, wrapped'⟩ := point'
    rw [wrapped, Option.some.injEq, Prod.mk.injEq] at wrapped'
    exact wrapped'.1.symm
  have used : ∀ ref ∈ (Request.setAttribute ⟨9⟩ "x" ⟨8⟩).borrowed, ref.place < pointed.heap.size := by
    intro ref member
    rw [size]
    simp only [Request.borrowed, List.mem_cons, List.not_mem_nil, or_false] at member
    rcases member with rfl | rfl <;> simp
  have ran : ((Request.setAttribute ⟨9⟩ "x" ⟨8⟩).run Figures.program).run pointed =
      (.ok [], ((Figures.program.setAttribute ⟨9⟩ "x" ⟨8⟩).run pointed).2) := by
    rcases assigning : (Figures.program.setAttribute ⟨9⟩ "x" ⟨8⟩).run pointed with ⟨outcome, after⟩
    rw [assigning] at assigned
    cases outcome with
    | ok _ =>
      rw [Request.run, Operation.run_bind_of_ok assigning]
      rfl
    | error fault => cases assigned
  have allowed : (Request.setAttribute ⟨9⟩ "x" ⟨8⟩).Allowed Figures.program pointed :=
    ⟨used, trivial⟩
  have free : (Request.setAttribute ⟨9⟩ "x" ⟨8⟩).spent + ({⟨9⟩} + rest) = {⟨9⟩} + rest :=
    zero_add _
  have later := keeps ⟨7⟩ [0] ⟨9⟩ pointed _ ({⟨9⟩} + rest) _ (.setAttribute ⟨9⟩ "x" ⟨8⟩)
    (free.symm ▸ kept) (by simp) allowed ran
  rw [none] at later
  obtain ⟨_, old, new, inside, left, changed⟩ := mutations ⟨7⟩ [0] ⟨9⟩ _ innerType pointed _ _ [0] _
    (.assign "x" ⟨8⟩) session' (by simp) point' wrapped allowed
    ⟨0, by rw [innerHost]; exact x, rfl⟩ ran
  obtain rfl : old = .int 0 := (Option.some.inj inside).symm
  obtain ⟨index, value, named, reads, rfl⟩ := left rfl
  rw [innerHost, x, Option.some.injEq] at named
  subst named
  rw [innerRegistry, innerHost] at reads
  obtain rfl : value = .int 5 := by
    have same : (Decode.value Figures.program pointed.heap ⟨0⟩ number ⟨8⟩ (.int 0)) = .ok value :=
      reads
    rw [same] at decoded
    exact Option.some.inj decoded
  exact ⟨_, _, kept, later, changed⟩

end HostBridge
