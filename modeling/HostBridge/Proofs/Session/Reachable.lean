import Mathlib
import HostBridge.Proofs.Ownership.Lending
import HostBridge.Proofs.Ownership.Plain
import HostBridge.Proofs.Session.Request

/-!
# Sessions

A session is any sequence of requests, from a world in which nothing has happened
yet.  The worlds that sessions reach are sound for the references that the client
holds.
-/

namespace HostBridge

open Op

variable {program : Program} {touch : Permission} {world : World}

/-! ## Requests count references -/

namespace World.Sound

variable {held : Multiset Ref} {ref : Ref}

theorem used_of_global (sound : world.Sound program held) {name : String} {value : Ref}
    (found : world.heap.global? ref name = some value) : value.place < world.heap.size := by
  unfold Heap.global? Heap.module? at found
  cases reading : world.heap.body ref with
  | module contents =>
    simp only [reading, Option.bind_some] at found
    refine sound.used_of_body ref ?_
    rw [reading]
    obtain ⟨front, back, split, _⟩ := List.lookup_eq_some_iff.mp found
    exact List.mem_append_left _ (by simp [split])
  | _ => simp [reading] at found

theorem used_of_instanceType (sound : world.Sound program held) {type : Ref}
    (found : world.heap.instanceType? ref = some type) :
    type.place < world.heap.size := by
  unfold Heap.instanceType? at found
  cases reading : world.heap.body ref with
  | «instance» shape state =>
    simp only [reading, Option.some.injEq] at found
    subst found
    refine sound.used_of_body ref ?_
    rw [reading]
    simp [Body.references]
  | _ => simp [reading] at found

end World.Sound

namespace Request

/-- An operation that hands over one object. -/
theorem runs_one {action : Op Ref} {taken : Multiset Ref} {post : Ref → World → Prop}
    (runs : Runs program touch action world taken (fun ref => {ref}) post) :
    Runs program touch (do return [← action]) world taken
      (fun given : List Ref => given) fun _ _ => True :=
  runs.bind fun _ _ _ _ => .pure rfl trivial

/-- An operation that hands over nothing. -/
theorem runs_none {α : Type} {action : Op α} {taken : Multiset Ref} {post : α → World → Prop}
    (runs : Runs program touch action world taken (fun _ => 0) post) :
    Runs program touch (do let _ ← action; return []) world taken
      (fun given : List Ref => given) fun _ _ => True :=
  runs.bind fun _ _ _ _ => .pure rfl trivial

/-- An operation that hands over what its result holds. -/
theorem runs_many {α : Type} {action : Op α} {held : α → List Ref} {taken : Multiset Ref}
    {post : α → World → Prop}
    (runs : Runs program touch action world taken (fun value => held value) post) :
    Runs program touch (do return held (← action)) world taken
      (fun given : List Ref => given) fun _ _ => True :=
  runs.bind fun _ _ _ _ => .pure rfl trivial

theorem plain_of_common {body : Body} (common : body.Common) : body.Plain program := by
  cases body <;> trivial

theorem references_of_foreign {payload : Payload} (foreign : payload.Foreign) :
    payload.references = [] := by
  cases payload <;> first | rfl | exact foreign.elim

/-- A detached reference comes back or is let go. -/
theorem runs_attach {thread : Thread} {detached : Detached}
    (created : detached.interpreter.number < world.interpreters.size) :
    Runs program touch ((Request.attach thread detached).run program) world
      {detached.object} (fun given : List Ref => given) fun _ _ => True := by
  have dropped : Path program touch world {detached.object}
      (world.dropDetached thread detached) (world.abandoned thread detached) :=
    World.path_dropDetached created
  by_cases foreign : thread = .foreign
  · have ran : (Op.attach thread detached).run world =
        (.error (.raised .attachedElsewhere), world.dropDetached thread detached) := by
      rw [Op.attach, if_pos foreign]
      rfl
    refine .of_ok ?_ dropped trivial
    simp only [Request.run, run_ofFunction, ran]
  · by_cases finished : (world.queue detached.interpreter).finished = true
    · have ran : (Op.attach thread detached).run world =
          (.error (.raised .interpreterFinalized), world.dropDetached thread detached) := by
        rw [Op.attach, if_neg foreign, Operation.run_bind_of_ok (run_world world), if_pos finished]
        rfl
      refine .of_ok ?_ dropped trivial
      simp only [Request.run, run_ofFunction, ran]
    · have ran : (Op.attach thread detached).run world = (.ok detached.object, world) := by
        rw [Op.attach, if_neg foreign, Operation.run_bind_of_ok (run_world world), if_neg finished]
        rfl
      refine .of_ok ?_ (.refl _ _) trivial
      simp only [Request.run, run_ofFunction, ran]

/-- A copy of the value behind a wrapper. -/
theorem runs_copyBehind {bridge : Bridge} {type : HostType} {ref : Ref} :
    Runs program touch ((Request.copyBehind bridge type ref).run program) world 0
      (fun given : List Ref => given) fun _ _ => True := by
  refine .assuming fun frame sound => ?_
  dsimp only [Request.run]
  rw [Program.valueBehind, bind_assoc]
  refine .heap_bind ?_
  cases wrapped : world.heap.wrapped? ref with
  | none => exact .look_bind rfl (.pure rfl trivial)
  | some parts =>
    obtain ⟨value, bridged⟩ := parts
    dsimp only
    split
    · refine .look_bind rfl (.adopt_bind (Decode.valid_wrapped? sound wrapped).used ?_)
      intro adopted after _ _
      exact .pure (zero_add _) trivial
    · exact .look_bind rfl (.pure rfl trivial)

/-- A permission covers the rosters that a request empties: those of registries that it
clears, and those of registries that are not alive afterwards. -/
structure CoveredBy (program : Program) (world : World) (request : Request) (touch : Permission) :
    Prop where
  cleared : ∀ registry, request.Clears world registry → touch.rosters registry
  dropped : ∀ registry, ((request.run program).run world).2.registryAlive registry = false →
    touch.rosters registry

theorem coveredBy_anything (program : Program) (world : World) (request : Request) :
    request.CoveredBy program world Permission.anything :=
  ⟨fun _ _ => trivial, fun _ _ => trivial⟩

/-- What follows an operation without doing anything leaves the world as it is. -/
theorem run_after {α β : Type} {action : Op α} {value : β} :
    ((action >>= fun _ => pure value).run world).2 = (action.run world).2 := by
  rw [Operation.run_bind]
  rcases action.run world with ⟨result, after⟩
  cases result <;> rfl

/-- A request that changes the contents of no object but a module. -/
def Gentle : Request → Prop
  | setItem _ _ _ | append _ _ | dictSet _ _ _ | dictErase _ _ | setInstanceState _ _
  | getAttribute _ _ | hasAttribute _ _ | setAttribute _ _ _ | call _ _ _ | callMethod _ _ _
  | callAs _ _ _ _ | updateBehind _ _ _ _ => False
  | _ => True

/-- A gentle request counts what the client hands over and comes to hold. -/
theorem runs_gentle (honest : program.Honest) (modules : ∀ contents, touch (.module contents))
    {request : Request} (gentle : request.Gentle) (covered : request.CoveredBy program world touch)
    (allowed : request.Allowed program world) :
    Runs program touch (request.run program) world request.spent
      (fun given : List Ref => given) fun _ _ => True := by
  obtain ⟨used, permitted⟩ := allowed
  cases request with
  | retain ref => exact runs_one (runs_retain (used ref (by simp [borrowed])))
  | release ref => exact runs_none (runs_release ref)
  | attach thread detached => exact runs_attach permitted
  | dropDetached thread detached =>
    exact .of_ok rfl (World.path_dropDetached permitted) trivial
  | create body => exact runs_one (runs_create (plain_of_common permitted) used)
  | createDict pairs => exact runs_one (runs_createDict used)
  | createModule name doc => exact runs_one (runs_createModule name doc)
  | createFunction definition self =>
    exact runs_one (Op.runs_createFunction (used self (by simp [borrowed])))
  | createType shape =>
    refine runs_one (runs_createType ?_ ?_)
    · intro bridged context
      exact (permitted (.bridged bridged) context).elim
    · intro inner member
      rw [Body.references] at member
      cases context : shape.context with
      | none => simp [context] at member
      | some payload => simp [context, references_of_foreign (permitted payload context)] at member
  | createInstance type => exact runs_one (runs_createInstance type)
  | item ref index => exact runs_one (runs_item ref index)
  | dictGet ref name => exact runs_many (runs_dictGet name)
  | dictGetText ref name => exact runs_many (runs_dictGetText name)
  | dictItems ref => exact runs_one (runs_dictItems ref)
  | global ref name =>
    refine .assuming fun frame sound => ?_
    show Runs program _ (do
      return (← retainOption ((← heap).global? ref name)).toList) world _ _ _
    refine .heap_bind (runs_many (runs_retainOption fun value found => ?_))
    exact sound.used_of_global found
  | addObject ref name value =>
    exact runs_none (runs_addObject modules (used value (by simp [borrowed])))
  | addFunction ref definition => exact runs_one (runs_addFunction modules definition)
  | setModuleState ref state =>
    refine runs_none (runs_setModuleState modules fun inner member => ?_)
    simp [references_of_foreign permitted] at member
  | instanceType ref =>
    refine .assuming fun frame sound => ?_
    refine .heap_bind (runs_many (runs_retainOption fun value found => ?_))
    exact sound.used_of_instanceType found
  | start configuration => exact runs_none (runs_start configuration)
  | mainModule id => exact runs_one (runs_mainModule permitted)
  | addModule id ref => exact runs_none (runs_addModule permitted (used ref (by simp [borrowed])))
  | findModule id name => exact runs_one (runs_findModule permitted)
  | announce id name => exact runs_none (runs_addHook id (.announce name))
  | setText id text => exact runs_none (runs_setExtensions id _)
  | setNumber id number => exact runs_none (runs_setExtensions id _)
  | flush id => exact runs_none (runs_flush id)
  | finalize id =>
    refine runs_none (runs_finalize permitted ⟨modules, covered.cleared, fun registry dead => ?_⟩)
    exact covered.dropped registry (by rwa [Request.run, run_after])
  | retainInterpreter id => exact runs_none (runs_retainInterpreter permitted)
  | dropInterpreter id =>
    refine runs_none (runs_dropInterpreter permitted fun last =>
      ⟨modules, fun registry clears => covered.cleared registry ⟨last, clears⟩, ?_⟩)
    exact fun registry dead => covered.dropped registry (by rwa [Request.run, run_after])
  | applyManifest manifest => exact runs_none (runs_applyManifest manifest)
  | connect id => exact runs_none (program.runs_connect permitted)
  | disconnect bridge =>
    have dropped : ∀ registry, ((Program.disconnect bridge).run world).2.registryAlive registry =
        false → touch.rosters registry :=
      fun registry dead => covered.dropped registry (by rwa [Request.run, run_after])
    exact runs_none (Program.runs_disconnect permitted (fun last =>
      ⟨modules, fun registry clears => covered.cleared registry ⟨last, clears⟩, dropped⟩) dropped)
  | createBridgeModule bridge name doc =>
    exact runs_one (program.runs_createBridgeModule modules permitted)
  | registerType bridge type module name doc =>
    exact runs_one (program.runs_registerType modules permitted)
  | registerTypeWith bridge code module name doc =>
    exact runs_one (program.runs_registerTypeWith modules permitted)
  | registerTypeHolding bridge exported module name doc =>
    exact runs_one (program.runs_registerTypeHolding modules permitted used)
  | registerFunction bridge module exported name doc =>
    exact runs_one (program.runs_registerFunction modules used)
  | exportFunction bridge exported name doc =>
    exact runs_one (program.runs_exportFunction modules used)
  | typeOf bridge type => exact runs_many program.runs_typeOf
  | toObject bridge type value => exact runs_one (program.runs_toObject permitted)
  | fromObject bridge type ref =>
    exact runs_many (program.runs_fromObject honest (used ref (by simp [borrowed])))
  | zeroValue type => exact runs_many (program.runs_zeroValue honest type)
  | copyBehind bridge type ref => exact runs_copyBehind
  | setItem | append | dictSet | dictErase | setInstanceState | getAttribute | hasAttribute
  | setAttribute | call | callMethod | callAs | updateBehind => exact gentle.elim

/-- A request counts what the client hands over and comes to hold. -/
theorem runs (honest : program.Honest) (confined : program.Confined touch) {request : Request}
    (covered : request.CoveredBy program world touch) (allowed : request.Allowed program world) :
    Runs program touch (request.run program) world request.spent
      (fun given : List Ref => given) fun _ _ => True := by
  have free := confined.contents
  have modules : ∀ contents, touch (.module contents) := fun contents => free (.module contents)
  obtain ⟨used, permitted⟩ := allowed
  cases request with
  | setItem ref index value => exact runs_none (runs_setItem free (used value (by simp [borrowed])))
  | append ref value => exact runs_none (runs_append free (used value (by simp [borrowed])))
  | dictSet ref name value =>
    exact runs_none (runs_dictSet free (used name (by simp [borrowed])) (used value (by simp [borrowed])))
  | dictErase ref name => exact runs_one (runs_dictErase free name)
  | setInstanceState ref state =>
    refine runs_none (runs_setInstanceState free ?_ fun inner member => ?_)
    · rintro registry held rfl
      exact permitted
    · simp [references_of_foreign permitted] at member
  | getAttribute self name =>
    exact runs_one (program.runs_getAttribute confined (used self (by simp [borrowed])))
  | hasAttribute self name =>
    exact runs_none (program.runs_hasAttribute confined (used self (by simp [borrowed])))
  | setAttribute self name value =>
    exact runs_none (program.runs_setAttribute honest confined (used self (by simp [borrowed]))
      (used value (by simp [borrowed])))
  | call callee positional keywords =>
    exact runs_one (program.runs_call honest confined (used callee (by simp [borrowed]))
      (fun ref member => used ref (by simp [borrowed, member]))
      fun ref member => used ref (by simp_all [borrowed]))
  | callMethod self name positional =>
    exact runs_one (program.runs_callMethod honest confined (used self (by simp [borrowed]))
      fun ref member => used ref (by simp [borrowed, member]))
  | callAs bridge type callee positional =>
    exact runs_many (program.runs_callAs honest confined (used callee (by simp [borrowed]))
      fun ref member => used ref (by simp [borrowed, member]))
  | updateBehind bridge type ref update => exact runs_none (program.runs_updateBehind free permitted)
  | _ => exact runs_gentle honest modules trivial covered ⟨used, permitted⟩

end Request

/-! ## Sessions -/

/-- What a client comes to hold when a request has ended. -/
def gained : Except Fault (List Ref) → Multiset Ref
  | .ok refs => refs
  | .error _ => 0

/-- A world that requests have led to, with the references that the client holds. -/
inductive Session (program : Program) : World → Multiset Ref → Prop
  | initial : Session program World.initial 0
  | request {before after : World} {rest : Multiset Ref} {result : Except Fault (List Ref)}
      (request : Request) (session : Session program before (request.spent + rest))
      (allowed : request.Allowed program before)
      (run : (request.run program).run before = (result, after)) :
    Session program after (gained result + rest)

namespace Session

/-- A request is a path that changes what is permitted. -/
theorem path_request_within (honest : program.Honest) (confined : program.Confined touch)
    {before after : World} {rest : Multiset Ref} {result : Except Fault (List Ref)}
    {request : Request} (sound : before.Sound program (request.spent + rest))
    (covered : request.CoveredBy program before touch) (allowed : request.Allowed program before)
    (run : (request.run program).run before = (result, after)) :
    Path program touch before request.spent after (gained result) := by
  have runs := Request.runs honest confined covered allowed rest sound
  rw [run] at runs
  cases result with
  | ok refs => exact runs.1
  | error fault => exact runs

/-- A request is a path. -/
theorem path_request (honest : program.Honest) {before after : World} {rest : Multiset Ref}
    {result : Except Fault (List Ref)} {request : Request}
    (sound : before.Sound program (request.spent + rest))
    (allowed : request.Allowed program before)
    (run : (request.run program).run before = (result, after)) :
    Path program Permission.anything before request.spent after (gained result) :=
  path_request_within honest honest.confined sound (Request.coveredBy_anything program before request)
    allowed run

/-- The worlds that sessions reach are sound. -/
theorem sound (honest : program.Honest) {held : Multiset Ref}
    (session : Session program world held) : world.Sound program held := by
  induction session with
  | initial => exact World.sound_initial
  | @request _ _ rest _ request _ allowed run ih =>
    exact ((path_request honest ih allowed run).frame rest).sound ih

/-- And they are tidy. -/
theorem tidy (honest : program.Honest) {held : Multiset Ref}
    (session : Session program world held) : world.Tidy := by
  induction session with
  | initial => exact World.tidy_initial
  | request request before allowed run ih =>
    exact (path_request honest (before.sound honest) allowed run).tidy ih

end Session

/-! ## Worlds on the way -/

/-- A world that a client may come to, or come by. -/
def World.Reached (program : Program) (world : World) (held : Multiset Ref) : Prop :=
  ∃ start kept, Session program start kept ∧
    Path program Permission.anything start kept world held

namespace World.Reached

variable {world after : World} {held left : Multiset Ref}

theorem sound (honest : program.Honest) (reached : world.Reached program held) :
    world.Sound program held := by
  obtain ⟨_, _, session, path⟩ := reached
  exact path.sound (session.sound honest)

theorem tidy (honest : program.Honest) (reached : world.Reached program held) : world.Tidy := by
  obtain ⟨_, _, session, path⟩ := reached
  exact path.tidy (session.tidy honest)

theorem trans (reached : world.Reached program held)
    (path : Path program Permission.anything world held after left) :
    after.Reached program left := by
  obtain ⟨start, kept, session, front⟩ := reached
  exact ⟨start, kept, session, front.trans path⟩

/-- An operation that takes nothing from the client leads on, with what it gives. -/
theorem path_of_ok (honest : program.Honest) (reached : world.Reached program held) {α : Type}
    {action : Op α} {value : α} {given : α → Multiset Ref} {post : α → World → Prop}
    (runs : Runs program Permission.anything action world 0 given post)
    (ran : action.run world = (.ok value, after)) :
    Path program Permission.anything world held after (given value + held) := by
  have framed : world.Sound program (0 + held) := by
    rw [zero_add]
    exact reached.sound honest
  have path := (runs.ok framed ran).1.frame held
  rwa [zero_add] at path

theorem path_of_error (honest : program.Honest) (reached : world.Reached program held) {α : Type}
    {action : Op α} {fault : Fault} {given : α → Multiset Ref} {post : α → World → Prop}
    (runs : Runs program Permission.anything action world 0 given post)
    (ran : action.run world = (.error fault, after)) :
    Path program Permission.anything world held after held := by
  have framed : world.Sound program (0 + held) := by
    rw [zero_add]
    exact reached.sound honest
  have path := (runs.error framed ran).frame held
  rwa [zero_add] at path

end World.Reached

/-! ## Playing requests -/

namespace Request

/-- The world that requests lead to, the last one first. -/
def played (program : Program) : List Request → World
  | [] => .initial
  | request :: earlier => ((request.run program).run (played program earlier)).2

/-- What the client then holds, if the requests hand over nothing. -/
def kept (program : Program) : List Request → Multiset Ref
  | [] => 0
  | request :: earlier =>
    gained ((request.run program).run (played program earlier)).1 + kept program earlier

/-- Requests that can be made one after the other, and hand over nothing. -/
def Playable (program : Program) : List Request → Prop
  | [] => True
  | request :: earlier => Playable program earlier ∧ request.spent = 0 ∧
      request.Allowed program (played program earlier)

theorem Playable.session {requests : List Request} (playable : Playable program requests) :
    Session program (played program requests) (kept program requests) := by
  induction requests with
  | nil => exact .initial
  | cons request earlier ih =>
    obtain ⟨before, free, allowed⟩ := playable
    exact .request request (by rw [free, zero_add]; exact ih before) allowed rfl

/-- Requests lead on from where earlier ones have led. -/
theorem Playable.path (honest : program.Honest) (requests : List Request)
    {earlier : List Request} (playable : Playable program (requests ++ earlier)) :
    Path program Permission.anything (played program earlier) (kept program earlier)
      (played program (requests ++ earlier)) (kept program (requests ++ earlier)) := by
  induction requests with
  | nil => exact .refl _ _
  | cons request requests ih =>
    obtain ⟨before, free, allowed⟩ := playable
    have sound := before.session.sound honest
    have last := (Session.path_request honest (by rwa [free, zero_add]) allowed rfl).frame
      (kept program (requests ++ earlier))
    rw [free, zero_add] at last
    exact (ih before).trans last

end Request

/-! ## A session with figures -/

namespace Figures

def bridge : Bridge := ⟨⟨0⟩, ⟨0⟩⟩

/-- Requests that export the types of the program into a new interpreter: points are
made by their constructor, segments are made as they are. -/
def opening : List Request :=
  [.registerType bridge (.struct ⟨1⟩) ⟨4⟩ "Segment" "",
    .registerTypeWith bridge 0 ⟨4⟩ "Point" "", .createBridgeModule bridge "figures" "",
    .connect ⟨0⟩, .start ⟨"", [], 128⟩]

set_option maxRecDepth 10000 in
theorem playable_opening : Request.Playable Figures.program opening := by
  have facts : (((Request.played Figures.program (opening.drop 4)).interpreter ⟨0⟩).owners,
      ((Request.played Figures.program (opening.drop 3)).interpreter ⟨0⟩).owners,
      (Request.played Figures.program (opening.drop 2)).registries.size,
      (Request.played Figures.program (opening.drop 1)).registries.size) = (1, 2, 1, 1) := by cbv
  simp only [Prod.mk.injEq] at facts
  obtain ⟨started, connected, made, pointed⟩ := facts
  have one : 0 < ((Request.played Figures.program (opening.drop 4)).interpreter ⟨0⟩).owners := by
    rw [started]
    exact Nat.zero_lt_one
  have two : 0 < ((Request.played Figures.program (opening.drop 3)).interpreter ⟨0⟩).owners := by
    rw [connected]
    exact Nat.zero_lt_two
  have first : 0 < (Request.played Figures.program (opening.drop 2)).registries.size := by
    rw [made]
    exact Nat.zero_lt_one
  have second : 0 < (Request.played Figures.program (opening.drop 1)).registries.size := by
    rw [pointed]
    exact Nat.zero_lt_one
  have nothing : ∀ {used : Ref → Prop}, ∀ ref ∈ ([] : List Ref), used ref :=
    fun _ member => by cases member
  exact ⟨⟨⟨⟨⟨trivial, rfl, nothing, trivial⟩, rfl, nothing, one⟩, rfl, nothing, two⟩, rfl, nothing,
    first⟩, rfl, nothing, second⟩

/-- A point is wrapped and held. -/
def wrapping : List Request :=
  .toObject bridge (.struct ⟨0⟩) (.struct [.int 1, .int 2]) :: opening

theorem playable_wrapping : Request.Playable Figures.program wrapping := by
  have unborrowed : ∀ {used : Ref → Prop}, ∀ ref ∈ ([] : List Ref), used ref :=
    fun _ member => by cases member
  refine ⟨playable_opening, rfl, unborrowed, ?_⟩
  show HostValue.fits Figures.program (.struct ⟨0⟩) (.struct [.int 1, .int 2]) = true
  decide

set_option maxRecDepth 10000 in
theorem kept_wrapping : Request.kept Figures.program wrapping =
    {⟨7⟩} + Request.kept Figures.program opening := by
  have made : (((Request.toObject bridge (.struct ⟨0⟩) (.struct [.int 1, .int 2])).run
      Figures.program).run (Request.played Figures.program opening)).1 = .ok [⟨7⟩] := by cbv
  rw [wrapping, Request.kept, made]
  rfl

end Figures

end HostBridge
