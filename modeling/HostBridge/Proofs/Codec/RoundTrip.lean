import HostBridge.Proofs.Codec.Decoding
import HostBridge.Proofs.Codec.Encoding
import HostBridge.Proofs.Session.Reachable

/-!
# Values come back from their objects

A value is encoded, and its object is decoded at once or later.  In between types may have been
registered, and the registry may have been cleared.  Neither concerns the object: a wrapper is read
by its type, which it holds, and a dict by its entries.  So the value comes back.
-/

namespace HostBridge

open Op

variable {program : Program}

/-! ## What leaves objects as they are -/

/-- Modules may change, and registries may forget wrappers; other objects stay as they are. -/
def Permission.modular : Permission where
  contents body := ∃ contents, body = .module contents
  rosters _ := True

theorem Permission.not_lasting_of_modular {body : Body} (touched : modular body) :
    ¬body.Lasting := by
  obtain ⟨contents, rfl⟩ := touched
  exact id

/-- Requests that register types or clear registries change modules at most. -/
theorem Session.path_gentle (honest : program.Honest) {before after : World}
    {rest : Multiset Ref} {result : Except Fault (List Ref)} {request : Request}
    (sound : before.Sound program (request.spent + rest)) (gentle : request.Gentle)
    (allowed : request.Allowed program before)
    (run : (request.run program).run before = (result, after)) :
    Path program Permission.modular before request.spent after (gained result) := by
  have covered : request.CoveredBy program before Permission.modular :=
    ⟨fun _ _ => trivial, fun _ _ => trivial⟩
  have modules : ∀ contents, Permission.modular (.module contents) :=
    fun contents => ⟨contents, rfl⟩
  have runs := Request.runs_gentle honest modules gentle covered allowed rest sound
  rw [run] at runs
  cases result with
  | ok refs => exact runs.1
  | error fault => exact runs

/-- So do several of them, one after the other. -/
theorem Request.Playable.path_gentle (honest : program.Honest) (requests : List Request)
    {earlier : List Request} (playable : Request.Playable program (requests ++ earlier))
    (gentle : ∀ request ∈ requests, request.Gentle) :
    ∃ taken, Path program Permission.modular (Request.played program earlier) 0
      (Request.played program (requests ++ earlier)) taken := by
  induction requests with
  | nil => exact ⟨0, .refl _ _⟩
  | cons request requests ih =>
    obtain ⟨before, free, allowed⟩ := playable
    obtain ⟨taken, path⟩ := ih before fun other member => gentle other (by simp [member])
    have sound : (Request.played program (requests ++ earlier)).Sound program
        (request.spent + Request.kept program (requests ++ earlier)) := by
      rw [free, zero_add]
      exact before.session.sound honest
    have last := Session.path_gentle honest sound (gentle request (by simp)) allowed rfl
    rw [free] at last
    have framed := last.frame taken
    rw [zero_add] at framed
    exact ⟨_, path.trans framed⟩

/-! ## Reading what stands for a value -/

section

variable {world : World} {held : Multiset Ref} {registered : StructId → Prop}
  {registry : RegistryId} {type : HostType} {value : HostValue} {ref : Ref}

/-- What stands for a value is read as a fresh value that is like it. -/
theorem Denotes.fresh (founded : program.Founded) (grounded : world.Grounded)
    (denotes : Denotes program world.heap registry registered type value ref) :
    ∃ back, Decode.fresh program world.heap registry type ref = .ok back ∧ value.Alike back := by
  have deep : ref.place < Decode.depth program world.heap :=
    Nat.lt_of_lt_of_le (Nat.lt_succ_of_lt (denotes.used grounded))
      (Nat.le_mul_of_pos_left _ (Nat.succ_pos _))
  obtain ⟨back, read, alike, _⟩ :=
    denotes.decoded founded grounded.rooted (program.fits_zero founded type) deep
  exact ⟨back, read, alike⟩

/-- Nothing has to be made for a regular value that is adopted. -/
theorem Op.run_adopt_of_regular (regular : value.Regular) :
    (adopt value).run world = (.ok value, world.retainAll value.references) := by
  rw [run_adopt, HostValue.completed_of_regular value _ regular]

theorem Denotes.run_fromObject (founded : program.Founded) {bridge : Bridge}
    (grounded : world.Grounded) (regular : value.Regular)
    (denotes : Denotes program world.heap bridge.registry registered type value ref) :
    ∃ back final, (program.fromObject bridge type ref).run world = (.ok (.ok back), final) ∧
      value.Alike back := by
  obtain ⟨back, read, alike⟩ := denotes.fresh founded grounded
  refine ⟨back, world.retainAll back.references, ?_, alike⟩
  rw [Program.fromObject, Operation.run_bind_of_ok (run_heap world), read]
  dsimp only
  rw [Operation.run_bind_of_ok (run_adopt_of_regular (alike.regular regular))]
  rfl

end

/-! ## There and back -/

/--
A value is encoded whatever types are registered, and its object is decoded as a value that is like
it, at once or after any steps that change no object but modules: among these are all that register
types, and all that clear a registry.
-/
theorem World.Reached.codec_roundTrip (honest : program.Honest) {world : World}
    {held : Multiset Ref} (reached : world.Reached program held) (bridge : Bridge)
    {type : HostType} {value : HostValue}
    (convertible : type.Convertible program (world.registers bridge.registry))
    (fit : value.fits program type = true) (regular : value.Regular)
    (used : ∀ ref ∈ value.references, ref.place < world.heap.size) :
    ∃ ref after, (Encode.value program bridge.registry type value).run world = (.ok ref, after) ∧
      ∀ later left, Path program Permission.modular after held later left →
        ∃ back final, (program.fromObject bridge type ref).run later = (.ok (.ok back), final) ∧
          value.Alike back := by
  obtain ⟨plain, shown, returns⟩ := convertible
  have ready : world.Encodes program bridge.registry (world.registers bridge.registry) plain held :=
    ⟨reached.sound honest, fun _ => Iff.rfl, shown⟩
  have makes : Encode.MakesValue program Permission.anything bridge.registry
      (world.registers bridge.registry) type value world :=
    Encode.makes_value value ready fit regular used returns
  obtain ⟨ref, after, ran, made, denotes⟩ := makes
  refine ⟨ref, after, ran, fun later left path => ?_⟩
  have sound := (made.encodes ready).sound
  have denotes' := denotes.kept path sound (fun _ => Permission.not_lasting_of_modular)
    (Multiset.mem_coe.mpr (List.mem_singleton_self ref))
  have grounded := ((path.frame _).sound sound).grounded
  exact denotes'.run_fromObject honest.founded grounded regular

namespace Figures

/-- Points under names. -/
def places : HostType := .map .sorted .text (.optional (.struct ⟨0⟩))

def placed : HostValue :=
  .map [(.text "home", .present (.struct [.int 3, .int 4])), (.text "work", .absent)]

/-- Requests that encode points before their type is registered, the last one first. -/
def encoding : List Request := .toObject bridge places placed :: opening.drop 2

/-- Requests that register the type of points, and then clear the registry. -/
def clearing : List Request := [.finalize ⟨0⟩, .registerTypeWith bridge 0 ⟨4⟩ "Point" ""]

set_option maxRecDepth 10000 in
theorem playable_clearing : Request.Playable Figures.program (clearing ++ encoding) := by
  have facts : ((Request.played Figures.program encoding).registries.size,
      ((Request.played Figures.program (clearing.drop 1 ++ encoding)).interpreter ⟨0⟩).owners) =
        (1, 2) := by cbv
  simp only [Prod.mk.injEq] at facts
  obtain ⟨created, owned⟩ := facts
  have first : Request.Playable Figures.program (opening.drop 2) := playable_opening.1.1
  have nothing : ∀ {used : Ref → Prop}, ∀ ref ∈ ([] : List Ref), used ref :=
    fun _ member => by cases member
  have encoded : Request.Playable Figures.program encoding := ⟨first, rfl, nothing, rfl⟩
  have registered : Request.Playable Figures.program (clearing.drop 1 ++ encoding) := by
    refine ⟨encoded, rfl, nothing, ?_⟩
    show 0 < (Request.played Figures.program encoding).registries.size
    rw [created]
    exact Nat.zero_lt_one
  refine ⟨registered, rfl, nothing, ?_⟩
  show 0 < ((Request.played Figures.program (clearing.drop 1 ++ encoding)).interpreter ⟨0⟩).owners
  rw [owned]
  exact Nat.zero_lt_two

theorem convertible_places (registered : StructId → Prop) :
    places.Convertible Figures.program registered := by
  refine ⟨fun id => id = ⟨0⟩, ?_, trivial, trivial, trivial, .inr rfl⟩
  rintro _ rfl
  have fields : (Figures.program.struct ⟨0⟩).fields = point.fields := rfl
  constructor
  · rw [fields]
    decide
  · rw [fields]
    decide
  · intro field member
    rw [fields] at member
    rcases List.mem_cons.mp member with rfl | member
    · trivial
    · rw [List.mem_singleton.mp member]
      trivial

/-- Points that were encoded as dicts come back after their type has been registered and the
registry has been cleared. -/
theorem codec_roundTrip_places :
    ∃ ref back final,
      ((Encode.value Figures.program bridge.registry places placed).run
        (Request.played Figures.program (opening.drop 2))).1 = .ok ref ∧
      (Figures.program.fromObject bridge places ref).run
        (Request.played Figures.program (clearing ++ encoding)) = (.ok (.ok back), final) ∧
      placed.Alike back := by
  have playable := playable_clearing
  have started : Request.Playable Figures.program (opening.drop 2) := playable_opening.1.1
  have reached : (Request.played Figures.program (opening.drop 2)).Reached Figures.program
      (Request.kept Figures.program (opening.drop 2)) := ⟨_, _, started.session, .refl _ _⟩
  have fit : placed.fits Figures.program places = true := rfl
  have ascending : HostValue.Ascending [.text "home", .text "work"] := by
    refine List.pairwise_cons.mpr ⟨?_, List.pairwise_singleton _ _⟩
    intro later member
    rw [List.mem_singleton.mp member]
    decide
  have regular : placed.Regular :=
    ⟨ascending, trivial, ⟨trivial, trivial, trivial⟩, trivial, trivial, trivial⟩
  have used : ∀ ref ∈ placed.references,
      ref.place < (Request.played Figures.program (opening.drop 2)).heap.size := nofun
  obtain ⟨ref, after, ran, back⟩ := reached.codec_roundTrip Figures.honest bridge
    (convertible_places _) fit regular used
  have made : (Figures.program.toObject bridge places placed).run
      (Request.played Figures.program (opening.drop 2)) = (.ok ref, after.releaseAll []) := by
    rw [Program.toObject, run_always_of_run ran]
    rfl
  have same : Request.played Figures.program encoding = after := by
    show ((Figures.program.toObject bridge places placed >>= fun ref => pure [ref]).run _).2 = after
    rw [Operation.run_bind_of_ok made]
    exact after.releaseAll_nil
  have gentle : ∀ request ∈ clearing, request.Gentle := by
    intro request member
    simp only [clearing, List.mem_cons, List.not_mem_nil, or_false] at member
    rcases member with rfl | rfl <;> trivial
  obtain ⟨taken, path⟩ := playable.path_gentle Figures.honest clearing gentle
  rw [same] at path
  have framed := path.frame (Request.kept Figures.program (opening.drop 2))
  rw [zero_add] at framed
  obtain ⟨back, final, read, alike⟩ := back _ _ framed
  exact ⟨ref, back, final, by rw [ran], read, alike⟩

end Figures

end HostBridge
