import HostBridge.Proofs.Codec.RoundTrip
import HostBridge.Proofs.Sharing.Sublocation

/-!
# Editing

A client edits objects: it sets items of lists and entries of dicts, and it mutates the values behind
wrappers.  Each edit changes one object, and what else the client does meanwhile changes no object but
modules.  So objects that are not edited stay as they are, and those that the client holds on to are
there in the end, with all that they are made of.
-/

namespace HostBridge

open Op

variable {program : Program} {world after : World} {held : Multiset Ref}

/-! ## Edits of containers -/

namespace Op

variable {ref : Ref}

/-- New contents for an object that is there leave all others alone. -/
theorem course_replace {old new : Body} (reading : world.heap.body ref = old)
    (something : old ≠ .none)
    (becomes : old.Becomes program world.heap new)
    (used : ∀ inner ∈ new.references, inner.place < world.heap.size) :
    Course program (· ≠ ref) world held (world.replace ref new) held := by
  obtain ⟨cell, there, body⟩ := Heap.exists_cell_of_body reading something
  exact .replace there (by rwa [body]) used

theorem course_setItem (sound : world.Sound program held) {index : Nat} {value : Ref}
    (used : value.place < world.heap.size) {result : Except Fault Unit}
    (ran : (setItem ref index value).run world = (result, after)) :
    Course program (· ≠ ref) world 0 after 0 := by
  rw [setItem, Operation.run_bind_of_ok (run_heap world)] at ran
  cases reading : world.heap.body ref with
  | list items =>
    rw [reading] at ran
    dsimp only at ran
    split at ran
    · cases ran
      refine course_replace reading (by simp) (.list _ _) fun inner member => ?_
      rcases List.mem_or_eq_of_mem_set member with old | rfl
      · exact sound.used_of_body ref (by simpa [reading, Body.references] using old)
      · exact used
    · cases ran
      exact .refl _ _
  | _ =>
    rw [reading] at ran
    cases ran
    exact .refl _ _

theorem course_append (sound : world.Sound program held) {value : Ref}
    (used : value.place < world.heap.size) {result : Except Fault Unit}
    (ran : (append ref value).run world = (result, after)) :
    Course program (· ≠ ref) world 0 after 0 := by
  rw [append, Operation.run_bind_of_ok (run_heap world)] at ran
  cases reading : world.heap.body ref with
  | list items =>
    rw [reading] at ran
    cases ran
    refine course_replace reading (by simp) (.list _ _) fun inner member => ?_
    rcases List.mem_append.mp member with old | new
    · exact sound.used_of_body ref (by simpa [reading, Body.references] using old)
    · rw [List.mem_singleton] at new
      rwa [new]
  | _ =>
    rw [reading] at ran
    cases ran
    exact .refl _ _

/-- What is done with a dict under the projection of a key leaves all other objects alone if it is no
more than to change the dict. -/
theorem course_entry {α : Type} {name : Ref} {next : Dict → Key → Op α} {owns : α → Multiset Ref}
    (changes : ∀ table projection result after, world.heap.body ref = .dict table →
      (next table projection).run world = (result, after) →
      Course program (· ≠ ref) world 0 after (handed owns result))
    {result : Except Fault α}
    (ran : (do next (← dict ref) (← key name)).run world = (result, after)) :
    Course program (· ≠ ref) world 0 after (handed owns result) := by
  cases found : world.heap.dict? ref with
  | none =>
    have failed : (dict ref).run world =
        (.error (.raised (.expectedDict (world.heap.typeName ref))), world) := by
      rw [run_dict, found]
    rw [Operation.run_bind_of_error failed] at ran
    cases ran
    exact .refl _ _
  | some table =>
    have read : (dict ref).run world = (.ok table, world) := by rw [run_dict, found]
    rw [Operation.run_bind_of_ok read] at ran
    cases hashed : world.heap.key name with
    | error exception =>
      have failed : (key name).run world = (.error (.raised exception), world) := by
        rw [run_key, hashed]
        rfl
      rw [Operation.run_bind_of_error failed] at ran
      cases ran
      exact .refl _ _
    | ok projection =>
      have projected : (key name).run world = (.ok projection, world) := by
        rw [run_key, hashed]
        rfl
      rw [Operation.run_bind_of_ok projected] at ran
      exact changes table projection result after (Heap.dict?_eq_some found) ran

theorem course_dictSet (sound : world.Sound program held) {name value : Ref}
    (nameUsed : name.place < world.heap.size) (valueUsed : value.place < world.heap.size)
    {result : Except Fault Unit} (ran : (dictSet ref name value).run world = (result, after)) :
    Course program (· ≠ ref) world 0 after 0 := by
  suffices course : Course program (· ≠ ref) world 0 after (handed (fun _ => 0) result) by
    cases result <;> exact course
  refine course_entry (fun table projection result after reading ran => ?_) ran
  cases ran
  refine course_replace reading (by simp) (.dict _ _) fun inner member => ?_
  rcases Dict.mem_references_set member with old | rfl | rfl
  · exact sound.used_of_body ref (by simpa [reading, Body.references] using old)
  · exact nameUsed
  · exact valueUsed

theorem course_dictErase (sound : world.Sound program held) {name : Ref} {result : Except Fault Ref}
    (ran : (dictErase ref name).run world = (result, after)) :
    Course program (· ≠ ref) world 0 after (handed (fun value => {value}) result) := by
  refine course_entry (fun table projection result after reading ran => ?_) ran
  cases found : table.get? projection with
  | none =>
    rw [found] at ran
    cases ran
    exact .refl _ _
  | some value =>
    rw [found] at ran
    dsimp only at ran
    have used : ∀ inner ∈ table.references, inner.place < world.heap.size := fun inner member =>
      sound.used_of_body ref (by simpa [reading, Body.references] using member)
    have taken : Path program Permission.nothing world 0 (world.retain value) (0 + {value}) :=
      .retain (used value (Dict.mem_references_of_get? found))
    rw [zero_add] at taken
    have reading' : (world.retain value).heap.body ref = .dict table :=
      (Heap.body_congr (world.heap.body_cell?_retain value ref)).trans reading
    rw [Operation.run_bind_of_ok (run_retain world value),
      Operation.run_bind_of_ok (run_change _ _)] at ran
    cases ran
    refine (Course.of_still taken).trans
      (course_replace reading' (by simp) (.dict _ _) fun inner member => ?_)
    exact Nat.lt_of_lt_of_le (used inner (Dict.mem_references_erase member)) taken.grows.places

end Op

/-! ## Requests that edit -/

/-- Reading an attribute of a wrapper changes no object. -/
theorem Program.runs_getAttribute_wrapper {touch : Permission} {self : Ref} {name : String}
    {content : Held} {bridged : BridgedType}
    (wrapper : world.heap.wrapper? self = some (content, bridged)) :
    Runs program touch (program.getAttribute self name) world 0 (fun ref => {ref})
      fun _ _ => True := by
  refine .assuming fun frame sound => ?_
  obtain ⟨type, registry, shape, body, typed, context, synthesized⟩ :=
    shape_of_wrapper? sound.wired wrapper
  obtain ⟨cell, _, _, present, _⟩ := Heap.wrapper?_eq_some.mp wrapper
  refine runs_getAttribute_of (Heap.place_lt_size present) ?_
  intro type' state shape' accessor body' typed' found
  rw [body] at body'
  cases body'
  rw [typed] at typed'
  cases typed'
  rcases synthesized.accesses context name with ⟨accessor', _, _, found', _, accesses⟩ | ⟨none, _⟩
  · rw [found] at found'
    cases found'
    rw [runGetter, accesses.getter]
    exact runs_readField self accessor.getClosure
  · rw [found] at none
    cases none

namespace Request

/-- A request that changes no object but modules. -/
inductive Calm (world : World) : Request → Prop
  | gentle {request : Request} (gentle : request.Gentle) : Calm world request
  | read {self : Ref} {name : String} {content : Held} {bridged : BridgedType}
      (wrapper : world.heap.wrapper? self = some (content, bridged)) :
      Calm world (.getAttribute self name)

/-- A request that changes one object: a list, a dict, or the wrapper that owns the value that is
mutated, be it through this wrapper or an alias. -/
inductive Edits (program : Program) (world : World) (held : Multiset Ref) : Request → Ref → Prop
  | setItem (ref : Ref) (index : Nat) (value : Ref) :
    Edits program world held (.setItem ref index value) ref
  | append (ref value : Ref) : Edits program world held (.append ref value) ref
  | dictSet (ref name value : Ref) : Edits program world held (.dictSet ref name value) ref
  | dictErase (ref name : Ref) : Edits program world held (.dictErase ref name) ref
  | mutate {self : Ref} {content : Held} {bridged : BridgedType} {inner : List Nat}
      (mutation : Mutation) (member : self ∈ held)
      (wrapper : world.heap.wrapper? self = some (content, bridged))
      (concerns : mutation.Concerns program world held self bridged inner) :
    Edits program world held (mutation.request self) (Heap.location self content).1

variable {request : Request} {result : Except Fault (List Ref)} {rest : Multiset Ref}

theorem Calm.path (calm : request.Calm world) (honest : program.Honest)
    (sound : world.Sound program (request.spent + rest)) (allowed : request.Allowed program world)
    (run : (request.run program).run world = (result, after)) :
    Path program Permission.modular world request.spent after (gained result) := by
  cases calm with
  | gentle gentle => exact Session.path_gentle honest sound gentle allowed run
  | @read self name _ _ wrapper =>
    have runs : Runs program Permission.modular ((getAttribute self name).run program) world 0
        (fun given : List Ref => given) fun _ _ => True :=
      runs_one (Program.runs_getAttribute_wrapper wrapper)
    cases result with
    | ok refs => exact (runs.ok sound run).1
    | error fault => exact runs.error sound run

/-- A request that ends without an object leaves alone what its operation does. -/
theorem course_of_unit {action : Op Unit} {spared : Ref → Prop}
    (course : ∀ outcome final, action.run world = (outcome, final) →
      Course program spared world 0 final 0)
    (run : (do action; return []).run world = (result, after)) :
    Course program spared world 0 after (gained result) := by
  rcases ended : action.run world with ⟨outcome, final⟩
  obtain ⟨rfl, rfl⟩ := ends_of_bind_pure ended run
  rw [gained_none]
  exact course outcome after ended

/-- An edit leaves all objects but one alone. -/
theorem Edits.course {target : Ref} (edits : request.Edits program world held target)
    (honest : program.Honest) (sound : world.Sound program held)
    (allowed : request.Allowed program world)
    (run : (request.run program).run world = (result, after)) :
    Course program (· ≠ target) world request.spent after (gained result) := by
  obtain ⟨used, permitted⟩ := allowed
  cases edits with
  | setItem _ index value =>
    exact course_of_unit (fun _ _ => course_setItem sound (used value (by simp [borrowed]))) run
  | append _ value =>
    exact course_of_unit (fun _ _ => course_append sound (used value (by simp [borrowed]))) run
  | dictSet _ name value =>
    exact course_of_unit (fun _ _ => course_dictSet sound (used name (by simp [borrowed]))
      (used value (by simp [borrowed]))) run
  | dictErase _ name =>
    rcases ended : (Op.dictErase target name).run world with ⟨outcome, final⟩
    obtain ⟨rfl, rfl⟩ := ends_of_bind_pure ended run
    rw [gained_single]
    exact course_dictErase sound ended
  | mutate mutation member wrapper concerns =>
    obtain ⟨_, _, _, _, _, writes, _⟩ :=
      mutation.writes honest sound member ⟨used, permitted⟩ wrapper concerns run
    rw [mutation.spent_request]
    exact writes.course

end Request

/-! ## Clients that edit -/

/-- What a client does from some world on that keeps hold of some objects: it edits objects for which
it is permitted, and makes other requests that change no object but modules. -/
inductive Editing (program : Program) (kept : Multiset Ref) (permitted : Ref → Prop) (first : World)
    (given : Multiset Ref) : World → Multiset Ref → Prop
  | refl : Editing program kept permitted first given first given
  | step {middle last : World} {rest : Multiset Ref} {request : Request}
      {result : Except Fault (List Ref)}
      (editing : Editing program kept permitted first given middle (request.spent + rest))
      (keeps : kept ≤ rest)
      (edits : request.Calm middle ∨ ∃ target, permitted target ∧
        request.Edits program middle (request.spent + rest) target)
      (allowed : request.Allowed program middle)
      (run : (request.run program).run middle = (result, last)) :
    Editing program kept permitted first given last (gained result + rest)

namespace Editing

variable {kept given left : Multiset Ref} {permitted : Ref → Prop} {first last : World}

/-- What a client does is a path. -/
theorem path (editing : Editing program kept permitted first given last left)
    (honest : program.Honest) (sound : first.Sound program given) :
    Path program Permission.anything first given last left := by
  induction editing with
  | refl => exact .refl _ _
  | step _ _ _ allowed run ih =>
    exact ih.trans ((Session.path_request honest (ih.sound sound) allowed run).frame _)

/-- Objects that may not be edited, modules apart, are left alone.  What the client keeps takes no
part in it. -/
theorem course (editing : Editing program kept permitted first given last left)
    (honest : program.Honest) (sound : first.Sound program given) {spared : Ref → Prop}
    (used : ∀ ref, spared ref → ref.place < first.heap.size)
    (stays : ∀ ref, spared ref → ∀ contents, first.heap.body ref ≠ .module contents)
    (forbidden : ∀ target, permitted target → ¬spared target) :
    Course program spared first (given - kept) last (left - kept) := by
  induction editing with
  | refl => exact .refl _ _
  | @step middle last rest request result editing within edits allowed run ih =>
    have path := editing.path honest sound
    have soundMiddle := path.sound sound
    rw [add_tsub_assoc_of_le within] at ih
    rw [add_tsub_assoc_of_le within]
    refine ih.trans (Course.frame (?_ : Course program spared middle request.spent last _) _)
    rcases edits with calm | ⟨target, permits, edits⟩
    · refine .of_path (calm.path honest soundMiddle allowed run) (fun ref member =>
        Nat.lt_of_lt_of_le (used ref member) path.grows.places) ?_
      rintro ref member cell there ⟨contents, body⟩
      obtain ⟨start, present⟩ := path.present (used ref member) there
      have same := ih.spares used ref member start cell present there
      exact stays ref member contents (by rw [Heap.body_eq present, ← same, body])
    · exact (edits.course honest soundMiddle allowed run).sparing fun ref member same =>
        forbidden target permits (same ▸ member)

end Editing

end HostBridge
