import HostBridge.Proofs.Dict.Reference

/-!
# What a dict has gone through

A dict starts out empty, and operations are done on it one after the other.  In
between the client may make any requests, as long as the keys of the dict do not
go away, which the references that the dict owns see to.  Whatever happens, the
dict answers like an association list, and its index stays exact.
-/

namespace HostBridge

variable {program : Program}

/-! ## Refusals -/

/-- What has no projection is refused as being of the wrong type. -/
theorem Heap.kind_of_keyWithin (heap : Heap) {depth : Nat} {ref : Ref} {exception : Exception}
    (refused : heap.keyWithin depth ref = .error exception) : exception.kind = .typeError := by
  induction depth generalizing ref with
  | zero => cases refused
  | succ depth below =>
    unfold keyWithin at refused
    cases reading : heap.body ref with
    | tuple items =>
      simp only [reading] at refused
      -- The first item without a projection is the one that is refused.
      have inner : ∀ items : List Ref, items.mapM (heap.keyWithin depth) = .error exception →
          exception.kind = .typeError := by
        intro items failed
        induction items with
        | nil => cases failed
        | cons item rest ih =>
          rw [List.mapM_cons] at failed
          cases first : heap.keyWithin depth item with
          | error exception' =>
            rw [first] at failed
            cases failed
            exact below first
          | ok projection =>
            rw [first] at failed
            cases others : rest.mapM (heap.keyWithin depth) with
            | error exception' =>
              rw [others] at failed
              cases failed
              exact ih others
            | ok projections =>
              rw [others] at failed
              cases failed
      cases failed : items.mapM (heap.keyWithin depth) with
      | error exception' =>
        rw [failed] at refused
        cases refused
        exact inner items failed
      | ok projections =>
        rw [failed] at refused
        cases refused
    | list | dict =>
      simp only [reading] at refused
      cases refused
      rfl
    | _ =>
      simp only [reading] at refused
      cases refused

namespace Dict

/-- An operation refuses only keys without a projection, and then does nothing. -/
theorem perform_of_refused {heap : Heap} {dict : Dict} {operation : Operation}
    {exception : Exception} (refused : (dict.perform heap operation).1 = .refused exception) :
    exception.kind = .typeError ∧ (dict.perform heap operation).2 = dict := by
  have kind : ∀ {key : Ref}, heap.key key = .error exception → exception.kind = .typeError :=
    fun failed => heap.kind_of_keyWithin failed
  cases operation with
  | set key | get key | remove key =>
    cases hashed : heap.key key with
    | ok projection =>
      simp only [perform, hashed] at refused
      cases refused
    | error exception' =>
      simp only [perform, hashed, Answer.refused.injEq] at refused ⊢
      exact ⟨kind (refused ▸ hashed), trivial⟩
  | getText | containsText | items | keys | length | takeAll => cases refused

/-! ## Histories -/

/-- The dict after a sequence of operations, the latest first, each with the heap in
which it was done. -/
def after : List (Heap × Operation) → Dict
  | [] => empty
  | (heap, operation) :: earlier => ((after earlier).perform heap operation).2

/-- The answers of the operations, the latest first. -/
def answers : List (Heap × Operation) → List Answer
  | [] => []
  | (heap, operation) :: earlier => ((after earlier).perform heap operation).1 :: answers earlier

end Dict

namespace Association

/-- The list after a sequence of operations. -/
def after : List (Heap × Dict.Operation) → List DictEntry
  | [] => []
  | (heap, operation) :: earlier => (perform heap (after earlier) operation).2

/-- The answers of the operations. -/
def answers : List (Heap × Dict.Operation) → List Dict.Answer
  | [] => []
  | (heap, operation) :: earlier => (perform heap (after earlier) operation).1 :: answers earlier

end Association

/-- The key object that an operation may put into a dict. -/
def Dict.Operation.enters : Dict.Operation → Option Ref
  | .set key _ => some key
  | _ => none

/-- Operations on a dict, the latest first, between requests that lead to a world. -/
inductive Dict.History (program : Program) :
    List (Heap × Dict.Operation) → World → Multiset Ref → Prop
  | start {world : World} {held : Multiset Ref} (session : Session program world held) :
    Dict.History program [] world held
  | perform {events : List (Heap × Dict.Operation)} {world : World} {held : Multiset Ref}
      (operation : Dict.Operation) (history : Dict.History program events world held)
      (there : ∀ key ∈ operation.enters, world.heap.holds key = true) :
    Dict.History program ((world.heap, operation) :: events) world held
  | request {events : List (Heap × Dict.Operation)} {before after : World} {rest : Multiset Ref}
      {result : Except Fault (List Ref)} (request : Request)
      (history : Dict.History program events before (request.spent + rest))
      (allowed : request.Allowed program before)
      (run : (request.run program).run before = (result, after))
      (owned : ∀ key ∈ (Dict.after events).keys, after.heap.holds key = true) :
    Dict.History program events after (gained result + rest)

namespace Dict.History

variable {events : List (Heap × Operation)} {world : World} {held : Multiset Ref}

theorem session (history : History program events world held) : Session program world held := by
  induction history with
  | start session => exact session
  | perform _ _ _ ih => exact ih
  | request request _ allowed run _ ih => exact .request request ih allowed run

end Dict.History

/-- The keys of a dict after an operation are its keys before it, and perhaps the one
that the operation enters. -/
theorem Association.mem_perform {heap : Heap} {entries : List DictEntry}
    {operation : Dict.Operation} {entry : DictEntry}
    (member : entry ∈ (perform heap entries operation).2) :
    (∃ old ∈ entries, old.key = entry.key) ∨ operation.enters = some entry.key := by
  have kept : entry ∈ entries → ∃ old ∈ entries, old.key = entry.key :=
    fun old => ⟨entry, old, rfl⟩
  cases operation with
  | set key value =>
    cases hashed : heap.key key with
    | error exception =>
      simp only [perform, hashed] at member
      exact .inl (kept member)
    | ok projection =>
      simp only [perform, hashed] at member
      clear kept
      induction entries with
      | nil =>
        rw [put, List.mem_singleton] at member
        exact .inr (by rw [member]; rfl)
      | cons head rest ih =>
        rw [put] at member
        split at member
        · rcases List.mem_cons.mp member with rfl | later
          · exact .inl ⟨head, by simp, rfl⟩
          · exact .inl ⟨entry, by simp [later], rfl⟩
        · rcases List.mem_cons.mp member with rfl | later
          · exact .inl ⟨entry, by simp, rfl⟩
          · rcases ih later with ⟨old, inside, same⟩ | new
            · exact .inl ⟨old, by simp [inside], same⟩
            · exact .inr new
  | remove key =>
    cases hashed : heap.key key with
    | error exception =>
      simp only [perform, hashed] at member
      exact .inl (kept member)
    | ok projection =>
      simp only [perform, hashed] at member
      refine .inl (kept ?_)
      clear kept
      induction entries with
      | nil => cases member
      | cons head rest ih =>
        rw [cut] at member
        split at member
        · simp [member]
        · rcases List.mem_cons.mp member with rfl | later
          · simp
          · simp [ih later]
  | get key =>
    cases hashed : heap.key key <;> simp only [perform, hashed] at member <;>
      exact .inl (kept member)
  | getText | containsText | items | keys | length => exact .inl (kept member)
  | takeAll => cases member

namespace Dict.History

variable {events : List (Heap × Operation)} {world : World} {held : Multiset Ref}

/-- The dict has the entries of the plain account, its index is exact, and its keys are
there. -/
theorem exact (honest : program.Honest) (history : History program events world held) :
    (Dict.after events).entries = Association.after events ∧ (Dict.after events).Exact world.heap ∧
      ∀ key ∈ (Dict.after events).keys, world.heap.holds key = true := by
  induction history with
  | @start world held session => exact ⟨rfl, exact_empty _, nofun⟩
  | @perform events world held operation history there ih =>
    obtain ⟨same, exact, present⟩ := ih
    obtain ⟨_, entries, kept⟩ := exact.perform operation
    refine ⟨by rw [Dict.after, entries, same]; rfl, kept, ?_⟩
    intro key member
    obtain ⟨entry, inside, rfl⟩ := List.mem_map.mp member
    rw [Dict.after, entries] at inside
    rcases Association.mem_perform inside with ⟨old, before, same'⟩ | new
    · rw [← same']
      exact present _ (List.mem_map_of_mem before)
    · exact there _ new
  | @request events before after rest result request history allowed run owned ih =>
    obtain ⟨same, exact, present⟩ := ih
    have sound := history.session.sound honest
    have path := (Session.path_request honest sound allowed run).frame rest
    refine ⟨same, exact.congr fun key member => ?_, owned⟩
    obtain ⟨cell, there⟩ := Option.isSome_iff_exists.mp (present key member)
    exact path.same_key sound (history.session.layered honest) (Heap.place_lt_size there)
      fun _ => owned key member

theorem answers_eq (honest : program.Honest) (history : History program events world held) :
    Dict.answers events = Association.answers events := by
  induction history with
  | start => rfl
  | @perform events world held operation history _ ih =>
    obtain ⟨same, exact, _⟩ := history.exact honest
    obtain ⟨answer, _, _⟩ := exact.perform operation
    rw [Dict.answers, Association.answers, answer, ih, same]
  | request _ _ _ _ _ ih => exact ih

end Dict.History

/--
After any operations on a dict that started out empty, with any requests in
between, the answers are those of an association list, and so are the entries.  No
two keys have the same projection, and the index maps exactly the projection of each
key to its position.  An operation that refuses a key does so for its type, and
leaves the dict as it was.
-/
theorem Dict.History.refines_association (honest : program.Honest)
    {events : List (Heap × Dict.Operation)} {world : World} {held : Multiset Ref}
    (history : Dict.History program events world held) :
    Dict.answers events = Association.answers events ∧
      (Dict.after events).entries = Association.after events ∧
      (Association.after events).Pairwise
        (fun entry other => world.heap.key entry.key ≠ world.heap.key other.key) ∧
      (∀ projection position, (Dict.after events).index.position? projection = some position ↔
        ∃ entry, (Association.after events)[position]? = some entry ∧
          world.heap.key entry.key = .ok projection) ∧
      ∀ operation exception,
        ((Dict.after events).perform world.heap operation).1 = .refused exception →
          exception.kind = .typeError ∧
            ((Dict.after events).perform world.heap operation).2 = Dict.after events := by
  obtain ⟨same, exact, _⟩ := history.exact honest
  exact ⟨history.answers_eq honest, same, same ▸ exact.distinct, same ▸ exact,
    fun _ _ => Dict.perform_of_refused⟩

/-- Two entries of a dict, the first of which is overwritten, removed and put in again. -/
def Figures.reinsertion : List (Heap × Dict.Operation) :=
  [.set ⟨1⟩ ⟨2⟩, .remove ⟨1⟩, .set ⟨1⟩ ⟨1⟩, .set ⟨2⟩ ⟨0⟩, .set ⟨1⟩ ⟨0⟩].map (World.initial.heap, ·)

/-- A key that is removed and put in again goes to the end. -/
theorem Dict.History.refines_association_reinserted :
    Dict.History Figures.program Figures.reinsertion World.initial 0 ∧
      (Dict.after Figures.reinsertion).entries = [⟨⟨2⟩, ⟨0⟩⟩, ⟨⟨1⟩, ⟨2⟩⟩] := by
  have history : Dict.History Figures.program Figures.reinsertion World.initial 0 :=
    .perform _ (.perform _ (.perform _ (.perform _ (.perform _ (.start .initial) (by decide))
      (by decide)) (by decide)) (by decide)) (by decide)
  obtain ⟨_, entries, _⟩ := history.refines_association Figures.honest
  refine ⟨history, ?_⟩
  rw [entries]
  cbv

end HostBridge
