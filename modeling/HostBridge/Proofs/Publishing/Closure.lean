import HostBridge.Proofs.Publishing.Registration
import HostBridge.Proofs.Session.Reachable
import HostBridge.Proofs.Calling.Rejection

/-!
# Registrations close the graph

A registration of a struct ends, and if it succeeds the registry knows all structs that
the given one leads to.  The argument needs that the registry is closed beforehand: a
struct that is known already is skipped together with all that it leads to.  Closed
registries are those that successful registrations make.
-/

namespace HostBridge

namespace Program

variable {program : Program} {registry : RegistryId}

theorem Closed.of_types {first second : Registry} (closed : program.Closed first)
    (same : second.types = first.types) : program.Closed second := by
  intro outer inner
  rw [Registry.handle?, Registry.handle?, same]
  exact closed outer inner

/-- The types of a registry that has been empty at first, and that registrations have been made
with, all of which succeeded.  What else happens in between does not matter as long as the
registry has the same types. -/
inductive Grown (program : Program) (registry : RegistryId) : List (StructId × Ref) → Prop
  | empty : Grown program registry []
  | registered {before after : World} {registration : Registration} {handle : Ref}
      (earlier : Grown program registry (before.registry registry).types) (tidy : before.Tidy)
      (created : registry.number < before.registries.size)
      (same : registration.bridge.registry = registry)
      (ran : (registration.run program).run before = (.ok handle, after)) :
    Grown program registry (after.registry registry).types

end Program

namespace Registration

variable {program : Program} {registration : Registration} {before after : World} {id : StructId}
  {handle : Ref}

/-- A successful registration leaves a closed registry closed. -/
theorem closed_of_ok (created : registration.bridge.registry.number < before.registries.size)
    (counted : before.heap.Counted)
    (closed : program.Closed (before.registry registration.bridge.registry))
    (ran : (registration.run program).run before = (.ok handle, after)) :
    program.Closed (after.registry registration.bridge.registry) := by
  by_cases struct : ∃ id, registration.Concerns program id
  · obtain ⟨id, struct⟩ := struct
    obtain ⟨made, publishes, _, _, leads⟩ := publishes_of_ok struct created counted ran
    intro outer inner known nests
    by_cases old : (before.registry registration.bridge.registry).handle? outer = none
    · rw [Ne, publishes.handle?_eq_none created] at known
      obtain ⟨one, member, rfl⟩ := List.mem_map.mp (not_not.mp (not_and.mp known old))
      exact leads one member inner nests
    · exact publishes.knows created (closed outer inner old nests)
  · obtain ⟨_, refused⟩ := run_of_other before (not_exists.mp struct)
    rw [refused] at ran
    cases ran

end Registration

/-- Successful registrations make closed registries. -/
theorem Program.Grown.closed {program : Program} {registry : RegistryId}
    {types : List (StructId × Ref)} (grown : program.Grown registry types) {entry : Registry}
    (same : entry.types = types) : program.Closed entry := by
  induction grown generalizing entry with
  | empty => exact closed_of_empty same
  | registered earlier tidy created bridge ran ih =>
    subst bridge
    exact (Registration.closed_of_ok created tidy.counted (ih rfl) ran).of_types same

/-- The names under which a module shows an object. -/
def ModuleBody.namesOf (contents : ModuleBody) (ref : Ref) : List String :=
  (contents.globals.filter (·.2 = ref)).map (·.1)

/-- Types that differ are shown by globals that differ. -/
theorem Publication.filter_global {made : List Publication}
    (distinct : (made.map Publication.handle).Nodup) {one : Publication} (member : one ∈ made) :
    (made.map Publication.global).filter (·.2 = one.handle) = [one.global] := by
  induction made with
  | nil => cases member
  | cons first rest ih =>
    obtain ⟨absent, distinct⟩ := List.nodup_cons.mp distinct
    rw [List.map_cons, List.filter_cons]
    rcases List.mem_cons.mp member with rfl | later
    · have none : (rest.map Publication.global).filter (·.2 = one.handle) = [] := by
        refine List.filter_eq_nil_iff.mpr fun global inside => ?_
        obtain ⟨other, among, rfl⟩ := List.mem_map.mp inside
        simp only [decide_eq_true_eq]
        exact fun same => absent (List.mem_map.mpr ⟨other, among, same⟩)
      rw [none, if_pos (by simp [global])]
    · rw [if_neg, ih distinct later]
      simp only [decide_eq_true_eq]
      exact fun same => absent (List.mem_map.mpr ⟨one, later, same.symm⟩)

/-- A type that has been published is shown once, under its name. -/
theorem Program.Publishes.namesOf {program : Program} {registry : RegistryId} {module : Ref}
    {before after : World} {made : List Publication} {held : Multiset Ref}
    (publishes : program.Publishes registry module before after made made)
    (sound : before.Sound program held) {one : Publication} (member : one ∈ made) :
    ∃ contents, after.heap.module? module = some contents ∧
      contents.namesOf one.handle = [one.name] := by
  obtain ⟨contents, reading⟩ :=
    Option.isSome_iff_exists.mp (publishes.shows (List.ne_nil_of_mem member))
  refine ⟨_, publishes.heap.module? reading, ?_⟩
  have old : contents.globals.filter (·.2 = one.handle) = [] := by
    refine List.filter_eq_nil_iff.mpr fun global inside => ?_
    have used : global.2.place < before.heap.size := by
      refine sound.used_of_body module ?_
      rw [Heap.module?_eq_some reading]
      exact List.mem_append_left _ (List.mem_map.mpr ⟨global, inside, rfl⟩)
    have fresh := publishes.fresh one member
    simp only [decide_eq_true_eq]
    intro same
    rw [same] at used
    exact absurd used (Nat.not_lt.mpr fresh)
  rw [ModuleBody.namesOf, ModuleBody.defining, List.filter_append, old,
    Publication.filter_global publishes.handles member]
  rfl

/--
What a successful registration of a struct has done.  Exactly those structs have been published
that the given one leads to and that were not registered, each of them once, and they are
registered along with the others.
-/
structure Registration.Closes (program : Program) (registration : Registration) (id : StructId)
    (before after : World) (handle : Ref) (made : List Publication) : Prop where
  publishes : program.Publishes registration.bridge.registry registration.module before after
    made made
  new : ∀ other, (∃ one ∈ made, one.id = other) ↔ program.Reaches id other ∧
    (before.registry registration.bridge.registry).handle? other = none
  named : ∀ one ∈ made, one.name =
    if one.id = id then registration.name else (program.struct one.id).name
  once : ∀ one ∈ made, ∃ contents, after.heap.module? registration.module = some contents ∧
    contents.namesOf one.handle = [one.name]
  handle : (after.registry registration.bridge.registry).handle? id = some handle
  registered : ∀ other, program.Reaches id other →
    (after.registry registration.bridge.registry).handle? other ≠ none
  earlier : ∀ other known,
    (before.registry registration.bridge.registry).handle? other = some known →
      (after.registry registration.bridge.registry).handle? other = some known
  others : ∀ other, ¬program.Reaches id other →
    (after.registry registration.bridge.registry).handle? other =
      (before.registry registration.bridge.registry).handle? other

/--
Registrations close the graph of structs.  In any world of a session in which the registry has
been filled by successful registrations, the registration of a struct does not run out of depth,
however the structs refer to each other, and if it succeeds it closes the graph.  A registration
of a struct that is registered gives its handle and changes nothing but how often that is
counted, in whatever module and under whatever name.
-/
theorem Session.registration_closes {program : Program} (honest : program.Honest)
    {start world : World} {kept held : Multiset Ref} (session : Session program start kept)
    (path : Path program Permission.anything start kept world held) (resolves : program.Resolves)
    {registration : Registration} {id : StructId} (struct : registration.Concerns program id)
    (declared : program.Declared id)
    (created : registration.bridge.registry.number < world.registries.size)
    (grown : program.Grown registration.bridge.registry
      (world.registry registration.bridge.registry).types) :
    ((registration.run program).run world).1 ≠ .error .exhausted ∧
      (∀ handle after, (registration.run program).run world = (.ok handle, after) →
        ∃ made, registration.Closes program id world after handle made) ∧
      ∀ (again : Registration) (other : StructId) (known : Ref), again.Concerns program other →
        (again.item.type program = .struct other ∨ again.item.Proper program) →
        (world.registry again.bridge.registry).handle? other = some known →
          ∃ after, (again.run program).run world = (.ok known, after) ∧
            after.surroundings = world.surroundings ∧
            ∀ ref, (after.heap.cell? ref).map Cell.body = (world.heap.cell? ref).map Cell.body := by
  have sound : world.Sound program held := path.sound (session.sound honest)
  have tidy : world.Tidy := path.tidy (session.tidy honest)
  refine ⟨Registration.run_ne_exhausted struct created tidy.counted declared resolves,
    fun handle after ran => ?_, fun again other known struct' accepted found => ?_⟩
  · obtain ⟨made, publishes, found, reached, leads⟩ :=
      Registration.publishes_of_ok struct created tidy.counted ran
    have closed := grown.closed rfl
    have closed' := Registration.closed_of_ok created tidy.counted closed ran
    have all : ∀ other, program.Reaches id other →
        (after.registry registration.bridge.registry).handle? other ≠ none := fun other reaches =>
      closed'.reaches (by rw [found]; simp) reaches
    refine ⟨made, publishes, fun other => ⟨?_, ?_⟩, fun one member => (reached one member).2.1,
      fun one member => publishes.namesOf sound member, found, all, ?_, ?_⟩
    · rintro ⟨one, member, rfl⟩
      exact ⟨(reached one member).1, publishes.unknown one member⟩
    · rintro ⟨reaches, unknown⟩
      have known := all other reaches
      rw [Ne, publishes.handle?_eq_none created] at known
      exact List.mem_map.mp (not_not.mp (not_and.mp known unknown))
    · intro other known earlier
      rw [publishes.handle?_after created, earlier, Option.some_or]
    · intro other apart
      have absent : (made.map Publication.entry).lookup other = none := by
        refine List.lookup_eq_none_iff.mpr fun entry member => bne_iff_ne.mpr ?_
        rintro rfl
        obtain ⟨one, inside, rfl⟩ := List.mem_map.mp member
        exact apart (reached one inside).1
      rw [publishes.handle?_after created, absent, Option.or_none]
  · refine ⟨_, Registration.run_of_known struct' accepted found, rfl, fun ref => ?_⟩
    exact Heap.body_cell?_retain world.heap known ref

/-! ## Ropes -/

/-- A method that leaves its receiver as it is and returns nothing. -/
def MethodDecl.Silent (method : MethodDecl) : Prop :=
  method.result = .unit ∧ method.run = fun _ subject _ => .returning subject .unit

/-- A program whose methods do nothing keeps its promises if it has no other host code. -/
theorem Program.Honest.of_silent {program : Program} (founded : program.Founded)
    (methods : ∀ decl ∈ program.structs, ∀ method ∈ decl.methods, method.Silent)
    (functions : program.functions = [])
    (makers : program.makers = []) (natives : program.natives = .absent) : program.Honest := by
  have nothing : ∀ {remains : HostValue → Prop} {parameters : List HostType},
      Behaviour.Honest program remains parameters .unit fun _ subject _ =>
        .returning subject .unit := fun _ _ _ stays used _ =>
    .ended stays used (fun _ same => by cases same; rfl)
      fun _ same => by cases same; simp [HostValue.references]
  have silent : ∀ owner index, (program.method owner index).Silent := by
    intro owner index
    rw [Program.method]
    cases found : (program.struct owner).methods[index]? with
    | none => exact ⟨rfl, rfl⟩
    | some method =>
      rw [Program.struct] at found
      cases declared : program.structs[owner.index]? with
      | none =>
        rw [declared] at found
        cases found
      | some decl =>
        rw [declared] at found
        exact methods decl (List.mem_of_getElem? declared) method (List.mem_of_getElem? found)
  have function : ∀ code, program.function code = default := fun code => by
    rw [Program.function, functions]
    rfl
  have maker : ∀ code, program.maker code = default := fun code => by
    rw [Program.maker, makers]
    rfl
  refine ⟨founded, fun owner index => ?_, fun code => ?_, fun code _ => ?_, fun code style => ?_,
    fun code style => ?_, ?_, ?_, ?_, ?_, ?_⟩
  · obtain ⟨result, run⟩ := silent owner index
    rw [result, run]
    exact nothing
  · rw [function]
    exact nothing
  · rw [maker]
    exact nothing
  · rw [maker] at style
    cases style
  · rw [maker] at style
    cases style
  all_goals rw [natives]
  · exact fun _ _ _ _ _ _ => .raise _
  · exact fun _ _ _ _ _ => .raise _
  · exact fun _ _ _ _ _ _ => .raise _
  · exact fun _ _ _ _ _ _ => .raise _
  · exact fun _ _ _ _ => .raise _

namespace Figures

/-- A strand may end in a knot, and it has beads on it. -/
def strand : StructDecl where
  name := "Strand"
  fields := [⟨"knot", .optional (.boxed (.struct ⟨1⟩)), true⟩,
    ⟨"beads", .seq (.struct ⟨2⟩), true⟩]
  methods := []

/-- A knot may tie a strand, and it may be tied to another knot. -/
def knot : StructDecl where
  name := "Knot"
  fields := [⟨"strand", .boxed (.optional (.struct ⟨0⟩)), true⟩,
    ⟨"next", .optional (.boxed (.struct ⟨1⟩)), true⟩]
  methods := []

def bead : StructDecl where
  name := "Bead"
  fields := []
  methods := []

/-- A program with structs that lead to each other and to themselves. -/
def ropes : Program where
  structs := [strand, knot, bead]
  sealedTypes := []
  functions := []
  makers := []
  natives := .absent
  typePath := fun _ => ""

theorem nests_ropes {outer inner : StructId} (nests : ropes.Nests outer inner) :
    inner = ⟨0⟩ ∨ inner = ⟨1⟩ := by
  obtain ⟨⟨field, index⟩, member, held⟩ := nests
  obtain ⟨declared, _⟩ := Program.mem_exportedFields member
  obtain ⟨outer⟩ := outer
  match outer, index with
  | 0, 0 | 0, 1 | 1, 0 | 1, 1 =>
    cases declared
    first
      | exact .inl (Option.some.inj held).symm
      | exact .inr (Option.some.inj held).symm
      | cases held
  | 0, index + 2 | 1, index + 2 | 2, index | outer + 3, index => cases declared

theorem honest_ropes : ropes.Honest := by
  refine .of_silent ⟨fun _ => 0, fun id field member inner held => ?_⟩ ?_ rfl rfl rfl
  · obtain ⟨index⟩ := id
    match index with
    | 0 | 1 =>
      simp only [ropes, Program.struct, strand, knot, List.getElem?_cons_zero,
        List.getElem?_cons_succ, Option.getD_some, List.mem_cons, List.not_mem_nil, or_false] at member
      rcases member with rfl | rfl <;> cases held
    | 2 | index + 3 => cases member
  · intro decl member
    simp only [ropes, List.mem_cons, List.not_mem_nil, or_false] at member
    rcases member with rfl | rfl | rfl <;>
    · intro method inside
      cases inside

/-- Requests that make a module for the types of the program. -/
def moored : List Request :=
  [.createBridgeModule bridge "ropes" "", .connect ⟨0⟩, .start ⟨"", [], 128⟩]

set_option maxRecDepth 10000 in
theorem playable_moored (program : Program) : Request.Playable program moored := by
  have facts : (((Request.played program (moored.drop 2)).interpreter ⟨0⟩).owners,
      ((Request.played program (moored.drop 1)).interpreter ⟨0⟩).owners) = (1, 2) := by cbv
  simp only [Prod.mk.injEq] at facts
  have one : 0 < ((Request.played program (moored.drop 2)).interpreter ⟨0⟩).owners := by
    rw [facts.1]
    exact Nat.zero_lt_one
  have two : 0 < ((Request.played program (moored.drop 1)).interpreter ⟨0⟩).owners := by
    rw [facts.2]
    exact Nat.zero_lt_two
  have nothing : ∀ {used : Ref → Prop}, ∀ ref ∈ ([] : List Ref), used ref :=
    fun _ member => by cases member
  exact ⟨⟨⟨trivial, rfl, nothing, trivial⟩, rfl, nothing, one⟩, rfl, nothing, two⟩

/-- Strands are to be exported under a name of their own. -/
def strands : Registration := ⟨bridge, .zeroed (.boxed (.struct ⟨0⟩)), ⟨4⟩, "Rope", ""⟩

end Figures

open Figures in
set_option maxRecDepth 10000 in
/-- Strands and knots lead to each other; they are registered together, and beads are not. -/
theorem Session.registration_closes_ropes :
    ∃ after made, (strands.run ropes).run (Request.played ropes moored) = (.ok ⟨5⟩, after) ∧
      strands.Closes ropes ⟨0⟩ (Request.played ropes moored) after ⟨5⟩ made ∧
      (after.registry ⟨0⟩).handle? ⟨1⟩ ≠ none ∧ (after.registry ⟨0⟩).handle? ⟨2⟩ = none := by
  have facts : (((strands.run ropes).run (Request.played ropes moored)).1,
      (Request.played ropes moored).registries.size,
      ((Request.played ropes moored).registry ⟨0⟩).types) = (.ok ⟨5⟩, 1, []) := by cbv
  simp only [Prod.mk.injEq] at facts
  obtain ⟨ended, registries, empty⟩ := facts
  have resolves : ropes.Resolves := by
    intro outer inner nests
    rcases nests_ropes nests with rfl | rfl <;> decide
  have created : strands.bridge.registry.number < (Request.played ropes moored).registries.size := by
    rw [registries]
    exact Nat.zero_lt_one
  have grown : ropes.Grown strands.bridge.registry
      ((Request.played ropes moored).registry strands.bridge.registry).types := by
    rw [show strands.bridge.registry = ⟨0⟩ from rfl, empty]
    exact .empty
  have struct : strands.Concerns ropes ⟨0⟩ := rfl
  have all := Session.registration_closes honest_ropes (playable_moored ropes).session (.refl _ _)
    resolves struct (by decide) created grown
  rcases ran : (strands.run ropes).run (Request.played ropes moored) with ⟨result, after⟩
  rw [ran] at ended
  cases ended
  obtain ⟨made, closes⟩ := all.2.1 ⟨5⟩ after ran
  refine ⟨after, made, rfl, closes, ?_, ?_⟩
  · exact closes.registered ⟨1⟩ (.single ⟨(⟨"knot", .optional (.boxed (.struct ⟨1⟩)), true⟩, 0),
      List.mem_cons_self, rfl⟩)
  · have apart : ¬ropes.Reaches ⟨0⟩ ⟨2⟩ := by
      intro reaches
      cases reaches with
      | tail _ nests => rcases nests_ropes nests with same | same <;> cases same
    refine (closes.others ⟨2⟩ apart).trans ?_
    rw [show (Request.played ropes moored).registry strands.bridge.registry =
      (Request.played ropes moored).registry ⟨0⟩ from rfl, Registry.handle?, empty]
    rfl

end HostBridge
