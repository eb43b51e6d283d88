import HostBridge.Proofs.Dict.Calling
import HostBridge.Proofs.Equality.Lawful
import HostBridge.Proofs.Ownership.Plain

/-!
# Equality in sessions

The heap of a session is canonical and its tuples are younger than their items, and so equality of
its objects agrees with their projections and is lawful.
-/

namespace HostBridge

variable {program : Program} {world : World} {held : Multiset Ref}

/-- Numbers that are rounded apart, an object that has a projection is equal to those that have the
same one.  An object has none exactly if a list or a dict occurs in it at some depth of tuples, and
the type of the leftmost one is what it is refused for. -/
theorem Session.hashing_agrees_with_equality (honest : program.Honest) (orderly : program.Orderly)
    (session : Session program world held) :
    (∀ left right, world.heap.Plain left → world.heap.Plain right →
      world.heap.Hashable left ∨ world.heap.Hashable right →
        (world.heap.equal left right = true ↔ world.heap.SameKey left right)) ∧
    ∀ ref, ((∃ exception, world.heap.key ref = .error exception) ↔
        ∃ part, world.heap.Part ref part ∧ (world.heap.body part).Unkeyed) ∧
      ∀ exception, world.heap.key ref = .error exception ↔
        ∃ part, world.heap.Leftmost ref part ∧
          exception = .unhashable (world.heap.typeName part) := by
  have canonical : world.heap.Canonical := session.canonical honest orderly
  have layered := session.layered honest
  refine ⟨fun left right plain plain' hashable => ?_, fun ref => ⟨?_, fun _ =>
    Heap.key_eq_error_iff layered⟩⟩
  · obtain ⟨cell, there⟩ := Option.isSome_iff_exists.mp (plain.there left .refl)
    exact Heap.equalWithin_iff_sameKey canonical layered
      (Nat.lt_succ_of_lt (Heap.place_lt_size there)) plain plain' hashable
  · have hashable := Heap.hashable_iff layered ref
    rw [← not_iff_not]
    push Not
    rw [← hashable, Heap.Hashable]
    cases world.heap.key ref with
    | ok projection => simp
    | error exception => simp

namespace Figures

/-- Nothing native is there to disturb a heap. -/
theorem orderly : Figures.program.Orderly where
  nativeFunction _ _ _ _ _ _ _ _ := .raise _
  nativeGetter _ _ _ _ _ _ _ := .raise _
  nativeSetter _ _ _ _ _ _ _ _ := .raise _
  nativeMaker _ _ _ _ _ _ _ _ := .raise _
  nativeAllocator _ _ _ _ _ _ := .raise _

/-- Two pairs of a number and a text, one number being `true`, and the second pair beside a list. -/
def pairing : List Request :=
  [.create (.tuple [⟨7⟩, ⟨8⟩]), .create (.list []), .create (.tuple [⟨3⟩, ⟨5⟩]),
    .create (.tuple [⟨2⟩, ⟨4⟩]), .create (.text "a"), .create (.text "a"), .create (.int 1)]

set_option maxRecDepth 10000 in
theorem playable_pairing : Request.Playable Figures.program pairing := by
  have sizes : (List.range 7).map (fun count =>
      (Request.played Figures.program (pairing.drop (7 - count))).heap.size) =
        [3, 4, 5, 6, 7, 8, 9] := by cbv
  simp only [List.range, List.range.loop, List.map_cons, List.map_nil, List.cons.injEq] at sizes
  obtain ⟨-, -, -, texts, pairs, -, lists, -⟩ := sizes
  have nothing : ∀ {used : Ref → Prop}, ∀ ref ∈ ([] : List Ref), used ref := by simp
  refine ⟨⟨⟨⟨⟨⟨⟨trivial, rfl, nothing, trivial⟩, rfl, nothing, trivial⟩, rfl, nothing, trivial⟩,
    rfl, ?_, trivial⟩, rfl, ?_, trivial⟩, rfl, nothing, trivial⟩, rfl, ?_, trivial⟩
  · show ∀ ref ∈ ([⟨2⟩, ⟨4⟩] : List Ref), ref.place < (Request.played program (pairing.drop 4)).heap.size
    rw [texts]
    decide
  · show ∀ ref ∈ ([⟨3⟩, ⟨5⟩] : List Ref), ref.place < (Request.played program (pairing.drop 3)).heap.size
    rw [pairs]
    decide
  · show ∀ ref ∈ ([⟨7⟩, ⟨8⟩] : List Ref), ref.place < (Request.played program (pairing.drop 1)).heap.size
    rw [lists]
    decide

end Figures

set_option maxRecDepth 10000 in
/-- The pairs are equal and so have one projection.  The list is what the last pair is refused for. -/
theorem Session.hashing_agrees_with_equality_pairs :
    (Request.played Figures.program Figures.pairing).heap.SameKey ⟨6⟩ ⟨7⟩ ∧
      ∃ part, (Request.played Figures.program Figures.pairing).heap.Leftmost ⟨9⟩ part ∧
        Exception.unhashable "list" =
          .unhashable ((Request.played Figures.program Figures.pairing).heap.typeName part) := by
  have bodies : (List.range 10).map (fun place =>
      ((Request.played Figures.program Figures.pairing).heap.holds ⟨place⟩,
        (Request.played Figures.program Figures.pairing).heap.body ⟨place⟩)) =
      [(true, .none), (true, .bool false), (true, .bool true), (true, .int 1), (true, .text "a"),
        (true, .text "a"), (true, .tuple [⟨2⟩, ⟨4⟩]), (true, .tuple [⟨3⟩, ⟨5⟩]), (true, .list []),
        (true, .tuple [⟨7⟩, ⟨8⟩])] := by cbv
  have outcomes : (Request.played Figures.program Figures.pairing).heap.equal ⟨6⟩ ⟨7⟩ = true ∧
      ((Request.played Figures.program Figures.pairing).heap.key ⟨6⟩).isOk = true ∧
      (Request.played Figures.program Figures.pairing).heap.key ⟨9⟩ =
        .error (.unhashable "list") := by cbv
  obtain ⟨equal, hashed, refused⟩ := outcomes
  simp only [List.range, List.range.loop, List.map_cons, List.map_nil, List.cons.injEq,
    Prod.mk.injEq] at bodies
  obtain ⟨-, -, ⟨held2, yes⟩, ⟨held3, one⟩, ⟨held4, text4⟩, ⟨held5, text5⟩, ⟨held6, pair6⟩,
    ⟨held7, pair7⟩, -⟩ := bodies
  have single : ∀ {heap : Heap} {ref : Ref} {body : Body}, heap.holds ref = true →
      heap.body ref = body → ¬body.Inexact → (∀ items, body ≠ .tuple items) → heap.Plain ref := by
    rintro heap ref _ there rfl exact single
    refine .of_items there exact fun _ inside => ?_
    obtain ⟨items, reading, _⟩ := inside
    exact absurd reading (single items)
  have pair : ∀ {heap : Heap} {ref left right : Ref}, heap.holds ref = true →
      heap.body ref = .tuple [left, right] → heap.Plain left → heap.Plain right →
      heap.Plain ref := by
    intro heap ref left right there reading plain plain'
    refine .of_items there (by rw [reading]; exact not_false) fun item inside => ?_
    obtain ⟨items, here, member⟩ := inside
    cases reading.symm.trans here
    rcases List.mem_pair.mp member with rfl | rfl <;> assumption
  have plain6 := pair held6 pair6 (single held2 yes not_false (by simp))
    (single held4 text4 not_false (by simp))
  have plain7 := pair held7 pair7 (single held3 one not_false (by simp))
    (single held5 text5 not_false (by simp))
  obtain ⟨agrees, fails⟩ := Session.hashing_agrees_with_equality Figures.honest Figures.orderly
    Figures.playable_pairing.session
  refine ⟨(agrees ⟨6⟩ ⟨7⟩ plain6 plain7 (.inl ?_)).mp equal, ((fails ⟨9⟩).2 _).mp refused⟩
  cases found : (Request.played Figures.program Figures.pairing).heap.key ⟨6⟩ with
  | ok projection => exact ⟨projection, found⟩
  | error exception =>
    rw [found] at hashed
    cases hashed

/-- Equality of objects without cycles is reflexive and symmetric, and it is transitive where nothing
is rounded.  Dicts are equal exactly if they have the same projections and equal values under them,
so the order in which their keys have come and what has been there before do not matter. -/
theorem Session.equality_is_lawful (honest : program.Honest) (orderly : program.Orderly)
    (session : Session program world held) {left middle right : Ref}
    (acyclic : world.heap.Acyclic left) (acyclic' : world.heap.Acyclic middle)
    (acyclic'' : world.heap.Acyclic right) :
    world.heap.equal left middle = world.heap.equal middle left ∧
    (world.heap.Precise left → world.heap.Precise middle → world.heap.Precise right →
      world.heap.equal left middle = true → world.heap.equal middle right = true →
        world.heap.equal left right = true) ∧
    (∀ ref, world.heap.equal ref ref = true) ∧
    ∀ table other, world.heap.body left = .dict table → world.heap.body middle = .dict other →
      (world.heap.equal left middle = true ↔
        (∀ projection, (table.get? projection).isSome = (other.get? projection).isSome) ∧
        ∀ projection value counterpart, table.get? projection = some value →
          other.get? projection = some counterpart → world.heap.equal value counterpart = true) ∧
      ∀ twin, world.heap.body right = .dict twin →
        (∀ projection, twin.get? projection = table.get? projection) →
          world.heap.equal right middle = world.heap.equal left middle := by
  have canonical : world.heap.Canonical := session.canonical honest orderly
  have layered := session.layered honest
  refine ⟨?_, ?_, Heap.equal_self world.heap, fun table other reading reading' => ⟨?_, ?_⟩⟩
  · rw [Bool.eq_iff_iff]
    exact ⟨Heap.equal_symm canonical layered acyclic acyclic',
      Heap.equal_symm canonical layered acyclic' acyclic⟩
  · exact fun precise precise' _ =>
      Heap.equal_trans canonical layered acyclic acyclic' acyclic'' precise precise'
  · rw [Heap.equal_dict_iff canonical layered acyclic acyclic' reading reading']
    exact (acyclic.keyed canonical layered table reading).agrees_iff_get?
      (acyclic'.keyed canonical layered other reading')
  · exact fun twin reading'' found =>
      Heap.equal_dict_congr canonical layered acyclic'' acyclic acyclic' reading'' reading reading'
        found

/-- Two dicts with the same keys, entered in another order, and `true` beside the number one. -/
def Figures.mirroring : List Request :=
  [.createDict [(⟨4⟩, ⟨0⟩), (⟨3⟩, ⟨2⟩)], .createDict [(⟨2⟩, ⟨2⟩), (⟨4⟩, ⟨0⟩)], .create (.text "b"),
    .create (.int 1)]

set_option maxRecDepth 10000 in
theorem Figures.playable_mirroring : Request.Playable Figures.program Figures.mirroring := by
  have sizes : (List.range 4).map (fun count =>
      (Request.played Figures.program (mirroring.drop (4 - count))).heap.size) = [3, 4, 5, 6] := by
    cbv
  simp only [List.range, List.range.loop, List.map_cons, List.map_nil, List.cons.injEq] at sizes
  obtain ⟨-, -, first, second, -⟩ := sizes
  have nothing : ∀ {used : Ref → Prop}, ∀ ref ∈ ([] : List Ref), used ref := by simp
  refine ⟨⟨⟨⟨trivial, rfl, nothing, trivial⟩, rfl, nothing, trivial⟩, rfl, ?_, trivial⟩, rfl, ?_,
    trivial⟩
  · show ∀ ref ∈ ([⟨2⟩, ⟨2⟩, ⟨4⟩, ⟨0⟩] : List Ref),
      ref.place < (Request.played program (mirroring.drop 2)).heap.size
    rw [first]
    decide
  · show ∀ ref ∈ ([⟨4⟩, ⟨0⟩, ⟨3⟩, ⟨2⟩] : List Ref),
      ref.place < (Request.played program (mirroring.drop 1)).heap.size
    rw [second]
    decide

set_option maxRecDepth 10000 in
/-- The dicts are equal either way round, and each key of one is in the other. -/
theorem Session.equality_is_lawful_dicts :
    (Request.played Figures.program Figures.mirroring).heap.equal ⟨5⟩ ⟨6⟩ = true ∧
      (Request.played Figures.program Figures.mirroring).heap.equal ⟨6⟩ ⟨5⟩ = true ∧
      ∀ table other, (Request.played Figures.program Figures.mirroring).heap.body ⟨5⟩ =
          .dict table →
        (Request.played Figures.program Figures.mirroring).heap.body ⟨6⟩ = .dict other →
        ∀ projection, (table.get? projection).isSome = (other.get? projection).isSome := by
  have facts : (Request.played Figures.program Figures.mirroring).heap.equal ⟨5⟩ ⟨6⟩ = true ∧
      (Request.played Figures.program Figures.mirroring).heap.size = 7 ∧
      ((List.range 7).all fun place =>
        (Request.played Figures.program Figures.mirroring).heap.holds ⟨place⟩ &&
        ((Request.played Figures.program Figures.mirroring).heap.body ⟨place⟩).contents.all
          fun inner => inner.place < place &&
            (Request.played Figures.program Figures.mirroring).heap.holds inner) = true := by cbv
  obtain ⟨equal, size, each⟩ := facts
  have session := Figures.playable_mirroring.session
  generalize Request.played Figures.program Figures.mirroring = world at *
  simp only [List.all_eq_true, List.mem_range, Bool.and_eq_true, decide_eq_true_eq] at each
  have older : ∀ outer inner, world.heap.Contains outer inner →
      inner.place < outer.place ∧ world.heap.holds inner = true := by
    intro outer inner inside
    have used : outer.place < 7 := by
      have something : world.heap.body outer ≠ .none := by
        intro nothing
        rw [Heap.Contains, nothing] at inside
        cases inside
      obtain ⟨cell, there, _⟩ := Heap.exists_cell_of_body rfl something
      exact size ▸ Heap.place_lt_size there
    exact (each outer.place used).2 inner inside
  have acyclic : ∀ place < 7, world.heap.Acyclic ⟨place⟩ :=
    fun place used => .of_older older (each place used).1
  obtain ⟨symmetric, _, _, dicts⟩ := Session.equality_is_lawful Figures.honest Figures.orderly
    session (acyclic 5 (by decide)) (acyclic 6 (by decide)) (acyclic 5 (by decide))
  exact ⟨equal, symmetric ▸ equal, fun table other reading reading' =>
    ((dicts table other reading reading').1.mp equal).1⟩

end HostBridge
