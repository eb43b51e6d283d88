import HostBridge.Proofs.Exporting.Admission
import HostBridge.Proofs.Exporting.History
import HostBridge.Proofs.Name.Numbering
import HostBridge.Proofs.Publishing.Closure

/-!
# Names of unnamed closures

An unnamed closure is called by the item that it is defined in and the least number that its module
has no name with.  The names of the module are read before the function is made, and nothing in
between defines one, so the name is still free when the function is published.  This holds for
exports into a slot table and for exports on their own, in any order.
-/

namespace HostBridge

open Op

/-! ## Unnamed closures -/

/-- An unnamed closure that is exported, with a slot in the table of a module or on its own. -/
inductive ClosureExport where
  | registered (bridge : Bridge) (item : Export) (doc : String)
  | created (bridge : Bridge) (item : Export) (doc : String)

namespace ClosureExport

def item : ClosureExport → Export
  | registered _ item _ | created _ item _ => item

/-- How many slots the export takes. -/
def slots : ClosureExport → Nat
  | registered _ _ _ => 1
  | created _ _ _ => 0

def run (program : Program) (module : Ref) : ClosureExport → Op Ref
  | registered bridge item doc => program.registerFunction bridge module item "" doc
  | created bridge item doc => program.createFunction bridge item "" doc

/-- Closures are exported one after the other. -/
def runAll (program : Program) (module : Ref) (closures : List ClosureExport) : Op (List Ref) :=
  closures.mapM (run program module)

/-- A closure of a given stem is exported into a module.  On its own it is exported into the main
module. -/
structure Into (program : Program) (world : World) (module : Ref) (stem : String)
    (closure : ClosureExport) : Prop where
  marked : Name.IsClosure (program.function closure.item.code).name
  stem : Name.closureStem (program.function closure.item.code).name = stem
  main : ∀ bridge item doc, closure = created bridge item doc →
    (world.interpreter bridge.interpreter).main = module

variable {program : Program} {world : World} {module : Ref} {contents : ModuleBody}
  {stem : String} {closure : ClosureExport} {closures : List ClosureExport}

theorem Into.congr {after : World} (into : closure.Into program world module stem)
    (same : after.interpreters = world.interpreters) : closure.Into program after module stem where
  marked := into.marked
  stem := into.stem
  main bridge item doc created := by
    rw [World.interpreter_congr same]
    exact into.main bridge item doc created

/-- An unnamed closure is called by its stem and the least free number. -/
theorem Into.derive_eq (into : closure.Into program world module stem) {names : List String}
    {number : Nat} (least : Name.LeastFree names stem number) :
    Name.derive "" (program.function closure.item.code).name names = Name.candidate stem number := by
  obtain ⟨marked, rfl, -⟩ := into
  exact Name.derive_of_isClosure marked least

/-- An unnamed closure is exported under the least number that is free. -/
theorem exists_run (counted : world.heap.Counted)
    (reading : world.heap.module? module = some contents)
    (into : closure.Into program world module stem) (vacant : closure.slots ≤ contents.vacancies)
    {number : Nat} (least : Name.LeastFree contents.names stem number) :
    ∃ function after, (closure.run program module).run world = (.ok function, after) ∧
      world.Gains after module (Name.candidate stem number) function closure.slots := by
  have named := into.derive_eq least
  have free : Name.derive "" (program.function closure.item.code).name contents.names ∉
      contents.names := by
    rw [named]
    exact least.free
  rw [← named]
  cases closure with
  | registered bridge item doc =>
    exact Program.exists_run_registerFunction counted reading vacant free
  | created bridge item doc =>
    exact Program.exists_run_createFunction counted (into.main bridge item doc rfl) reading free

/-- An export is not rejected for its name, even if it is for lack of slots. -/
theorem run_ne_functionNotPublished (counted : world.heap.Counted)
    (reading : world.heap.module? module = some contents)
    (into : closure.Into program world module stem) (name : String) (exception : Exception)
    (after : World) : (closure.run program module).run world ≠
      (.error (.panicked (.functionNotPublished name exception)), after) := by
  intro failed
  by_cases vacant : closure.slots ≤ contents.vacancies
  · obtain ⟨number, -, least⟩ := Name.exists_leastFree contents.names stem
    obtain ⟨function, accepted, ran, -⟩ := exists_run counted reading into vacant least
    rw [ran] at failed
    cases failed
  · cases closure with
    | created bridge item doc => exact vacant (Nat.zero_le _)
    | registered bridge item doc =>
      have full : contents.vacancies = 0 := Nat.lt_one_iff.mp (Nat.lt_of_not_le vacant)
      rw [run] at failed
      rcases tabling : (Program.slotTable bridge.registry module).run world with
        ⟨fault | slots, first⟩
      · obtain ⟨-, ⟨_, rfl⟩, -⟩ := Program.slotTable_of_error tabling
        rw [Program.registerFunction, Operation.run_bind_of_ok (run_heap world),
          Operation.run_bind_of_error (Program.run_orPanic_of_raised tabling _)] at failed
        cases failed
      · obtain ⟨_, owner, reading', state, -, -⟩ := Program.edits_slotTable counted tabling
        cases reading.symm.trans reading'
        rw [← contents.vacancies_tabled bridge.registry, ModuleBody.vacancies, state] at full
        obtain ⟨text, registering⟩ := Program.run_registerFunction tabling rfl
        rw [registering, if_pos (Nat.sub_eq_zero_iff_le.mp full)] at failed
        cases failed

/-- Closures that are exported one after the other are numbered in order. -/
theorem exists_run_all (counted : world.heap.Counted)
    (reading : world.heap.module? module = some contents)
    (into : ∀ closure ∈ closures, closure.Into program world module stem)
    (vacant : (closures.map slots).sum ≤ contents.vacancies) {count : Nat}
    (numbered : contents.names = (List.range count).map (Name.candidate stem)) :
    ∃ functions after later,
      (runAll program module closures).run world = (.ok functions, after) ∧
      after.heap.module? module = some later ∧
      later.names = (List.range (count + closures.length)).map (Name.candidate stem) ∧
      later.globals.map Prod.snd = contents.globals.map Prod.snd ++ functions := by
  induction closures generalizing world contents count with
  | nil => exact ⟨[], world, contents, rfl, reading, numbered, (List.append_nil _).symm⟩
  | cons closure closures ih =>
    obtain ⟨intoFirst, intoRest⟩ := List.forall_mem_cons.mp into
    rw [List.map_cons, List.sum_cons] at vacant
    have least : Name.LeastFree contents.names stem count := by
      rw [numbered]
      exact Name.leastFree_range stem count
    obtain ⟨function, first, ran, gains⟩ :=
      exists_run counted reading intoFirst (Nat.le_of_add_right_le vacant) least
    obtain ⟨middle, there, globals, vacancies⟩ := gains.exists_module reading
    have numberedNext : middle.names = (List.range (count + 1)).map (Name.candidate stem) := by
      rw [ModuleBody.names, globals, List.map_append, ← ModuleBody.names, numbered,
        List.range_succ, List.map_append]
      rfl
    have room : (closures.map slots).sum ≤ middle.vacancies := by omega
    obtain ⟨functions, after, later, rest, found, names, values⟩ := ih (gains.counted counted) there
      (fun closure member => (intoRest closure member).congr gains.interpreters) room numberedNext
    refine ⟨function :: functions, after, later, ?_, found, ?_, ?_⟩
    · rw [runAll, List.mapM_cons, Operation.run_bind_of_ok ran, ← runAll,
        Operation.run_bind_of_ok rest]
      rfl
    · rw [names, List.length_cons, Nat.add_assoc, Nat.add_comm 1]
    · rw [values, globals, List.map_append, List.append_assoc]
      rfl

end ClosureExport

/--
Unnamed closures do not collide.  In any world that a session has come to, whatever the names of a
module are, a closure that is exported into it is called by its stem and the least number that is
free, as long as a slot is free or no slot is needed; the name is added to those of the module, and
nothing else that was there changes.  An export is never rejected for its name.  Closures of one
stem that are exported into a module without names are numbered from zero in their order.
-/
theorem World.Reached.closures_numbered {program : Program} (honest : program.Honest)
    {world : World} {held : Multiset Ref} (reached : world.Reached program held) {module : Ref}
    {contents : ModuleBody} (reading : world.heap.module? module = some contents) :
    (∀ stem (closure : ClosureExport), closure.Into program world module stem →
      (closure.slots ≤ contents.vacancies → ∃ number ≤ contents.globals.length,
        Name.LeastFree contents.names stem number ∧ ∃ function after,
          (closure.run program module).run world = (.ok function, after) ∧
          world.Gains after module (Name.candidate stem number) function closure.slots) ∧
      ∀ name exception after, (closure.run program module).run world ≠
        (.error (.panicked (.functionNotPublished name exception)), after)) ∧
    ∀ stem (closures : List ClosureExport), contents.globals = [] →
      (∀ closure ∈ closures, closure.Into program world module stem) →
      (closures.map ClosureExport.slots).sum ≤ contents.vacancies →
      ∃ functions after later,
        (ClosureExport.runAll program module closures).run world = (.ok functions, after) ∧
        after.heap.module? module = some later ∧
        later.names = (List.range closures.length).map (Name.candidate stem) ∧
        later.globals.map Prod.snd = functions := by
  have counted := reached.counted honest
  constructor
  · intro stem closure into
    constructor
    · intro vacant
      obtain ⟨number, bound, least⟩ := Name.exists_leastFree contents.names stem
      rw [ModuleBody.names, List.length_map] at bound
      exact ⟨number, bound, least, ClosureExport.exists_run counted reading into vacant least⟩
    · exact ClosureExport.run_ne_functionNotPublished counted reading into
  · intro stem closures empty into vacant
    have numbered : contents.names = (List.range 0).map (Name.candidate stem) := by
      rw [ModuleBody.names, empty]
      rfl
    obtain ⟨functions, after, later, ran, found, names, values⟩ :=
      ClosureExport.exists_run_all counted reading into vacant numbered
    rw [Nat.zero_add] at names
    rw [empty] at values
    exact ⟨functions, after, later, ran, found, names, values⟩

namespace Figures

/-- A program with a closure. -/
def builder : Program where
  structs := []
  sealedTypes := []
  functions := [⟨"app::Setup::\x7b\x7bclosure\x7d\x7d", [], .unit,
    fun _ subject _ => .returning subject .unit⟩]
  makers := []
  natives := .absent
  typePath := fun _ => ""

theorem honest_builder : builder.Honest := by
  have nothing : ∀ {remains : HostValue → Prop} {parameters : List HostType},
      Behaviour.Honest builder remains parameters .unit fun _ subject _ =>
        .returning subject .unit := fun _ _ _ stays used _ =>
    .ended stays used (fun _ same => by cases same; rfl)
      fun _ same => by cases same; simp [HostValue.references]
  refine ⟨⟨fun _ => 0, nofun⟩, fun owner index => nothing, fun code => ?_, fun code _ => nothing,
    nofun, nofun, ?_, ?_, ?_, ?_, ?_⟩
  · match code with
    | 0 | code + 1 => exact nothing
  · exact fun _ _ _ _ _ _ => .raise _
  · exact fun _ _ _ _ _ => .raise _
  · exact fun _ _ _ _ _ _ => .raise _
  · exact fun _ _ _ _ _ _ => .raise _
  · exact fun _ _ _ _ => .raise _

end Figures

open Figures in
set_option maxRecDepth 10000 in
/-- A closure is exported into the main module in either way. -/
theorem World.Reached.closures_numbered_setup : ∃ functions after later,
    (ClosureExport.runAll builder ⟨3⟩ [.registered bridge pick "", .created bridge pick ""]).run
      (Request.played builder moored) = (.ok functions, after) ∧
    after.heap.module? ⟨3⟩ = some later ∧
    later.names = ["setup_closure_0", "setup_closure_1"] := by
  have facts : ((Request.played builder moored).heap.module? ⟨3⟩).map
        (fun contents => (contents.globals, contents.vacancies)) = some ([], slotCapacity) ∧
      ((Request.played builder moored).interpreter ⟨0⟩).main = ⟨3⟩ := by
    cbv
  obtain ⟨reads, main⟩ := facts
  obtain ⟨contents, reading, same⟩ := Option.map_eq_some_iff.mp reads
  obtain ⟨empty, vacant⟩ := Prod.mk.inj same
  have reached : (Request.played builder moored).Reached builder
      (Request.kept builder moored) :=
    ⟨_, _, (playable_moored builder).session, .refl _ _⟩
  have marked : Name.IsClosure "app::Setup::\x7b\x7bclosure\x7d\x7d" := by decide
  have stem : Name.closureStem "app::Setup::\x7b\x7bclosure\x7d\x7d" = "setup_closure" := by decide
  have into : ∀ closure ∈ [ClosureExport.registered bridge pick "", .created bridge pick ""],
      closure.Into builder (Request.played builder moored) ⟨3⟩ "setup_closure" := by
    rw [List.forall_mem_cons, List.forall_mem_singleton]
    constructor
    · refine ⟨marked, stem, ?_⟩
      rintro _ _ _ ⟨⟩
    · refine ⟨marked, stem, ?_⟩
      rintro _ _ _ ⟨⟩
      exact main
  have room : ([ClosureExport.registered bridge pick "", .created bridge pick ""].map
      ClosureExport.slots).sum ≤ contents.vacancies := by
    rw [vacant]
    decide
  obtain ⟨functions, after, later, ran, found, names, -⟩ :=
    (reached.closures_numbered honest_builder reading).2 "setup_closure" _ empty into room
  have spelled : (List.range 2).map (Name.candidate "setup_closure") =
      ["setup_closure_0", "setup_closure_1"] := by decide
  exact ⟨functions, after, later, ran, found, names.trans spelled⟩

end HostBridge
