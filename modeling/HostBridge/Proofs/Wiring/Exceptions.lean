import HostBridge.Proofs.Calling.Run
import HostBridge.Proofs.Ownership.Invoke

/-!
# Exceptions on the way through the bridge

Host code cannot let an exception through: it goes on with the exception that a call has
raised, and ends with a result or a panic.  So running host code raises nothing.  Making the
object for a host value raises an exception only if a key of a dict cannot be hashed.
-/

namespace HostBridge

/-- The exception for an object that has no hash. -/
def Exception.Unhashable (exception : Exception) : Prop :=
  ∃ typeName, exception = .unhashable typeName

/-- A pure computation fails in certain ways only. -/
def FailsOnly {ε α : Type} (result : Except ε α) (allowed : ε → Prop) : Prop :=
  ∀ failure, result = .error failure → allowed failure

namespace FailsOnly

variable {ε ι α β : Type} {allowed : ε → Prop}

theorem ok (value : α) : FailsOnly (.ok value : Except ε α) allowed := by
  rintro failure ⟨⟩

theorem bind {first : Except ε α} {next : α → Except ε β} (fails : FailsOnly first allowed)
    (later : ∀ value, FailsOnly (next value) allowed) : FailsOnly (first >>= next) allowed := by
  intro failure failed
  cases first with
  | ok value => exact later value failure failed
  | error other =>
    obtain rfl : other = failure := Except.error.inj failed
    exact fails other rfl

theorem mapM {f : ι → Except ε α} {items : List ι} (each : ∀ item, FailsOnly (f item) allowed) :
    FailsOnly (items.mapM f) allowed := by
  induction items with
  | nil => exact .ok _
  | cons head tail ih =>
    rw [List.mapM_cons]
    exact (each head).bind fun _ => ih.bind fun _ => .ok _

theorem foldlM {f : β → ι → Except ε β} {items : List ι}
    (each : ∀ value item, FailsOnly (f value item) allowed) (start : β) :
    FailsOnly (items.foldlM f start) allowed := by
  induction items generalizing start with
  | nil => exact .ok _
  | cons head tail ih =>
    rw [List.foldlM_cons]
    exact (each start head).bind fun value => ih value

end FailsOnly

/-- Only lists and dicts have no hash. -/
theorem Heap.fails_keyWithin (heap : Heap) (depth : Nat) (ref : Ref) :
    FailsOnly (heap.keyWithin depth ref) Exception.Unhashable := by
  induction depth generalizing ref with
  | zero => exact .ok _
  | succ depth ih =>
    unfold keyWithin
    split
    case h_8 => exact (FailsOnly.mapM ih).bind fun _ => .ok _
    case h_9 | h_10 =>
      rintro failure ⟨⟩
      exact ⟨_, rfl⟩
    all_goals exact .ok _

theorem Op.fails_dictOf (heap : Heap) (pairs : List (Ref × Ref)) :
    FailsOnly (dictOf heap pairs) Exception.Unhashable :=
  FailsOnly.foldlM (fun _ (name, _) => (heap.fails_keyWithin _ name).bind fun _ => .ok _) _

namespace Op

variable {α β : Type} {allowed : Exception → Prop}

/-- All exceptions that an operation raises are allowed ones. -/
def RaisesOnly (action : Op α) (allowed : Exception → Prop) : Prop :=
  ∀ world exception after, action.run world = (.error (.raised exception), after) →
    allowed exception

namespace RaisesOnly

theorem pure (value : α) : RaisesOnly (Pure.pure value) allowed := by
  rintro world exception after ⟨⟩

theorem step (action : World → α × World) : RaisesOnly (Op.step action) allowed := by
  rintro world exception after ⟨⟩

theorem change (step : World → World) : RaisesOnly (Op.change step) allowed := by
  rintro world exception after ⟨⟩

theorem panic (misuse : Misuse) : RaisesOnly (Op.panic misuse : Op α) allowed := by
  rintro world exception after ⟨⟩

theorem bind {first : Op α} {next : α → Op β} (raises : RaisesOnly first allowed)
    (later : ∀ value, RaisesOnly (next value) allowed) : RaisesOnly (first >>= next) allowed := by
  intro world exception after ran
  rcases ended : first.run world with ⟨result, middle⟩
  cases result with
  | ok value =>
    rw [Operation.run_bind_of_ok ended] at ran
    exact later value middle exception after ran
  | error fault =>
    rw [Operation.run_bind_of_error ended] at ran
    cases ran
    exact raises world exception after ended

/-- Looking at the world raises nothing. -/
theorem look_bind {read : World → α} {next : α → Op β}
    (later : ∀ value, RaisesOnly (next value) allowed) :
    RaisesOnly ((do return read (← Op.world)) >>= next) allowed :=
  bind (fun _ _ _ ran => by cases ran) later

theorem always {action : Op α} (raises : RaisesOnly action allowed) (step : World → World) :
    RaisesOnly (action.always step) allowed := by
  intro world exception after ran
  rw [run_always] at ran
  exact raises world exception _ (Prod.ext (Prod.mk.inj ran).1 rfl)

theorem undoing {action : Op α} (raises : RaisesOnly action allowed) (step : World → World) :
    RaisesOnly (action.undoing step) allowed := by
  intro world exception after ran
  rw [Op.undoing, run_ofFunction] at ran
  rcases ended : action.run world with ⟨result, middle⟩
  rw [ended] at ran
  cases result with
  | ok value => cases ran
  | error fault =>
    cases ran
    exact raises world exception middle ended

theorem ofExcept {result : Except Exception α} (fails : FailsOnly result allowed) :
    RaisesOnly (Op.ofExcept (result.mapError .raised)) allowed := by
  intro world exception after ran
  cases result with
  | ok value => cases ran
  | error failure =>
    cases ran
    exact fails _ rfl

end RaisesOnly

/-! ## Objects for host values -/

theorem raises_createDict (pairs : List (Ref × Ref)) :
    RaisesOnly (createDict pairs) Exception.Unhashable :=
  .look_bind fun heap => (RaisesOnly.ofExcept (fails_dictOf heap pairs)).bind fun _ => .step _

theorem raises_placeDict (pairs : List (Ref × Ref)) :
    RaisesOnly (placeDict pairs) Exception.Unhashable :=
  (raises_createDict pairs).always _

theorem raises_retain (ref : Ref) : RaisesOnly (retain ref) allowed :=
  (RaisesOnly.change _).bind fun _ => .pure _

theorem raises_adopt (value : HostValue) : RaisesOnly (adopt value) allowed :=
  (RaisesOnly.change _).bind fun _ => .step _

theorem raises_adoptAll (values : List HostValue) : RaisesOnly (adoptAll values) allowed :=
  (RaisesOnly.change _).bind fun _ => .step _

theorem raises_wrap (registry : RegistryId) (type : Ref) (held : Held) :
    RaisesOnly (wrap registry type held) allowed :=
  (raises_retain type).bind fun _ => (RaisesOnly.step _).bind fun _ =>
    (RaisesOnly.change _).bind fun _ => .look_bind fun _ => (RaisesOnly.change _).bind fun _ => .pure _

theorem raises_wrapCopy (registry : RegistryId) (type : Ref) (value : HostValue) :
    RaisesOnly (wrapCopy registry type value) allowed :=
  (raises_adopt value).bind fun _ => raises_wrap _ _ _

theorem raises_wrapField (registry : RegistryId) (type anchor : Ref) (held : Held) (field : Nat) :
    RaisesOnly (wrapField registry type anchor held field) allowed :=
  (raises_retain anchor).bind fun _ => raises_wrap _ _ _

end Op

namespace Encode

open Op

variable (program : Program) (registry : RegistryId)

mutual

/-- Making an object raises an exception only if a key has no hash. -/
theorem raises_value : ∀ (type : HostType) (value : HostValue),
    RaisesOnly (Encode.value program registry type value) Exception.Unhashable
  | .unit, value | .bool, value | .object, value => by
    cases value <;> first | exact raises_retain _ | exact .panic _
  | .int _, value | .float .single, value | .float .double, value | .complex .single, value
  | .complex .double, value | .text, value | .bytes, value => by
    cases value <;> first | exact .step _ | exact .panic _
  | .keywords, value => by
    cases value with
    | keywords dict =>
      cases dict with
      | none => exact .step _
      | some ref => exact raises_retain _
    | _ => exact .panic _
  | .seq element, value => by
    cases value with
    | seq values => exact (raises_elements element values []).bind fun _ => .step _
    | _ => exact .panic _
  | .map _ key content, value => by
    cases value with
    | map entries =>
      exact (raises_entries key content entries []).bind fun pairs => raises_placeDict pairs
    | _ => exact .panic _
  | .struct id, value => by
    cases value with
    | struct values =>
      refine .look_bind fun handle => ?_
      cases handle with
      | some type => exact raises_wrapCopy registry type _
      | none => exact (raises_fields _ values []).bind fun pairs => raises_placeDict pairs
    | _ => exact .panic _
  | .boxed element, value => by
    cases value with
    | boxed inner => exact raises_value element inner
    | _ => exact .panic _
  | .optional element, value => by
    cases value with
    | absent => exact raises_retain _
    | present inner => exact raises_value element inner
    | _ => exact .panic _
  | .tuple types, value => by
    cases value with
    | tuple values => exact (raises_components types values []).bind fun _ => .step _
    | _ => exact .panic _
  | .sealed _, value => by
    cases value <;> exact .panic _

theorem raises_elements : ∀ (element : HostType) (values : List HostValue) (done : List Ref),
    RaisesOnly (Encode.elements program registry element done values) Exception.Unhashable
  | _, [], _ => .pure _
  | element, head :: tail, done => ((raises_value element head).undoing _).bind fun ref =>
    raises_elements element tail (ref :: done)

theorem raises_components : ∀ (types : List HostType) (values : List HostValue) (done : List Ref),
    RaisesOnly (Encode.components program registry types done values) Exception.Unhashable
  | [], [], _ | [], _ :: _, _ | _ :: _, [], _ => .pure _
  | type :: types, head :: tail, done => ((raises_value type head).undoing _).bind fun ref =>
    raises_components types tail (ref :: done)

theorem raises_entries : ∀ (keyType valueType : HostType) (entries : List (HostValue × HostValue))
    (done : List (Ref × Ref)),
    RaisesOnly (Encode.entries program registry keyType valueType done entries)
      Exception.Unhashable
  | _, _, [], _ => .pure _
  | keyType, valueType, (key, content) :: tail, done =>
    ((raises_value keyType key).undoing _).bind fun key =>
      ((raises_value valueType content).undoing _).bind fun content =>
        raises_entries keyType valueType tail ((key, content) :: done)

theorem raises_fields : ∀ (fields : List FieldDecl) (values : List HostValue)
    (done : List (Ref × Ref)),
    RaisesOnly (Encode.fields program registry fields done values) Exception.Unhashable
  | [], [], _ | [], _ :: _, _ | _ :: _, [], _ => .pure _
  | field :: rest, head :: tail, done => by
    rw [Encode.fields]
    split
    · exact ((raises_value field.type head).undoing _).bind fun ref =>
        (RaisesOnly.step _).bind fun name => raises_fields rest tail ((name, ref) :: done)
    · exact raises_fields rest tail done

end

end Encode

/-! ## Host code -/

namespace Op

variable {allowed : Exception → Prop}

/-- Host code goes on with what a call raises. -/
theorem raises_runRoutine (callback : Callback) (routine : Routine) (held : List Ref) :
    RaisesOnly (runRoutine callback held routine) allowed := by
  induction routine generalizing held with
  | ended outcome => exact .pure _
  | makeText text resume ih => exact (RaisesOnly.step _).bind fun ref => ih ref _
  | call callee arguments resume ih =>
    intro world exception after ran
    rw [runRoutine, run_ofFunction] at ran
    split at ran
    · exact ih _ _ _ _ _ _ ran
    · exact ih _ _ _ _ _ _ ran
    · rename_i fault middle other _
      cases ran
      exact absurd rfl (other exception)

theorem raises_exchange (ref : Ref) (inner : List Nat) (value : HostValue) :
    RaisesOnly (exchange ref inner value) allowed := by
  refine .look_bind fun heap => ?_
  split
  · exact .change _
  · dsimp only
    split
    · exact .change _
    · exact (RaisesOnly.change _).bind fun _ => .change _

theorem raises_perform {callback : Callback} {run : Behaviour} {subject : HostValue}
    {arguments : List HostValue} {store : HostValue → Op Unit}
    (stores : ∀ value, RaisesOnly (store value) allowed) :
    RaisesOnly (perform callback run subject arguments store) allowed := by
  refine .look_bind fun heap => ((raises_runRoutine callback _ []).undoing _).bind ?_
  rintro ⟨outcome, held⟩
  have rest : ∀ {next : Op HostValue}, RaisesOnly next allowed → RaisesOnly (do
      store (← adopt outcome.subject)
      releaseAll held
      releaseAll (HostValue.referencesAll arguments)
      next) allowed := fun last =>
    (raises_adopt _).bind fun left => (stores left).bind fun _ =>
      (RaisesOnly.change _).bind fun _ => (RaisesOnly.change _).bind fun _ => last
  dsimp only
  split
  · refine (raises_adopt _).bind fun value => (RaisesOnly.pure _).bind fun result => rest ?_
    cases result with
    | ok value => exact .pure _
    | error message => exact .panic _
  · refine (RaisesOnly.pure _).bind fun result => rest ?_
    cases result with
    | ok value => exact .pure _
    | error message => exact .panic _

end Op

end HostBridge
