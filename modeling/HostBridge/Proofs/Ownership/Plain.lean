import HostBridge.Proofs.Ownership.Host

/-!
# Host code that only computes

Much host code computes what it leaves and what it returns, and does nothing else.
Such code keeps the promises of the host language if its results are of the right
types and hold no other objects than it has been given.
-/

namespace HostBridge

namespace Behaviour

variable {program : Program}

/-- Host code that computes its outcome from what it is given. -/
def computing (outcome : HostValue → List HostValue → Outcome) : Behaviour :=
  fun _ subject arguments => .ended (outcome subject arguments)

theorem honest_computing {outcome : HostValue → List HostValue → Outcome}
    {remains : HostValue → Prop} {parameters : List HostType} {type : HostType}
    (left : ∀ subject arguments, remains subject →
      HostValue.fitsAll program parameters arguments = true →
        remains (outcome subject arguments).subject ∧
        ∀ value, (outcome subject arguments).result = .ok value → value.fits program type = true)
    (given : ∀ subject arguments ref,
      (ref ∈ (outcome subject arguments).subject.references ∨
        ∃ value, (outcome subject arguments).result = .ok value ∧ ref ∈ value.references) →
      ref ∈ subject.references ∨ ref ∈ HostValue.referencesAll arguments) :
    (computing outcome).Honest program remains parameters type := by
  intro heap subject arguments stays used valid
  obtain ⟨remaining, fit⟩ := left subject arguments stays valid.1
  have known : ∀ ref, (ref ∈ subject.references ∨ ref ∈ HostValue.referencesAll arguments) →
      ref.place < heap.size := fun ref among => among.elim (used ref) (valid.2 ref)
  refine .ended remaining (fun ref member => ?_) fit fun value succeeded ref member => ?_
  · exact known ref (given subject arguments ref (.inl member))
  · exact known ref (given subject arguments ref (.inr ⟨value, succeeded, member⟩))

end Behaviour

/-- No native entry point is there. -/
def Natives.absent : Natives where
  function _ _ _ _ := Op.raise .contextMissing
  getter _ _ _ := Op.raise .contextMissing
  setter _ _ _ _ := Op.raise .contextMissing
  maker _ _ _ _ := Op.raise .contextMissing
  allocator _ _ := Op.raise .contextMissing

/-! ## Figures -/

namespace Figures

/-- What host code does with a pair of numbers: it keeps them as the fields of a
struct, and returns the first one. -/
def keepPair : Behaviour := .computing fun subject arguments =>
  match arguments with
  | [first, second] => ⟨.struct [first, second], .ok first⟩
  | _ => ⟨subject, .error "two numbers expected"⟩

def number : HostType := .int .i64

/-- A point, with a method that moves it. -/
def point : StructDecl where
  name := "Point"
  fields := [⟨"x", number, true⟩, ⟨"y", number, true⟩]
  methods := [⟨"move_to", "", .exclusive, [number, number], number, keepPair⟩]

/-- A segment between two points. -/
def segment : StructDecl where
  name := "Segment"
  fields := [⟨"start", .struct ⟨0⟩, true⟩, ⟨"stop", .struct ⟨0⟩, true⟩]
  methods := []

/-- A program with points and segments, a constructor for points, and a function. -/
def program : Program where
  structs := [point, segment]
  sealedTypes := []
  functions := [⟨"first", [number, number], number, keepPair⟩]
  makers := [⟨"new_point", .struct ⟨0⟩, .receiver, [number, number], number, keepPair⟩]
  natives := .absent
  typePath := fun _ => ""

theorem keepPair_honest {remains : HostValue → Prop}
    (kept : ∀ first second, first.fits program number = true → second.fits program number = true →
      remains (.struct [first, second])) :
    keepPair.Honest program remains [number, number] number := by
  refine Behaviour.honest_computing ?_ ?_
  · intro subject arguments stays fit
    match arguments, fit with
    | [first, second], fit =>
      simp only [HostValue.fitsAll, Bool.and_eq_true] at fit
      refine ⟨kept first second fit.1 fit.2.1, ?_⟩
      rintro value ⟨⟩
      exact fit.1
    | [_], fit | _ :: _ :: _ :: _, fit => simp [HostValue.fitsAll] at fit
  · intro subject arguments ref among
    match arguments with
    | [first, second] =>
      refine .inr ?_
      rcases among with member | ⟨value, same, member⟩
      · simpa [HostValue.references] using member
      · cases same
        simp [HostValue.referencesAll, member]
    | [] | [_] | _ :: _ :: _ :: _ =>
      rcases among with member | ⟨_, failed, _⟩
      · exact .inl member
      · cases failed

theorem fits_point {first second : HostValue} (left : first.fits program number = true)
    (right : second.fits program number = true) :
    (HostValue.struct [first, second]).fits program (.struct ⟨0⟩) = true := by
  show ((first.fits program number) && ((second.fits program number) && true)) = true
  rw [left, right]
  rfl

/-- Points hold numbers and segments hold points. -/
theorem founded : program.Founded := by
  refine ⟨fun id => id.index, fun id field member inner held => ?_⟩
  obtain ⟨index⟩ := id
  match index with
  | 0 =>
    have declared : field ∈ point.fields := member
    simp only [point, List.mem_cons, List.not_mem_nil, or_false] at declared
    rcases declared with rfl | rfl <;> cases held
  | 1 =>
    have declared : field ∈ segment.fields := member
    simp only [segment, List.mem_cons, List.not_mem_nil, or_false] at declared
    rcases declared with rfl | rfl <;>
    · rw [HostType.held, List.mem_singleton] at held
      subst held
      exact Nat.zero_lt_one
  | index + 2 => cases member

/-- The program keeps what the host language promises. -/
theorem honest : program.Honest where
  founded := founded
  method owner index := by
    obtain ⟨number⟩ := owner
    match number, index with
    | 0, 0 => exact keepPair_honest fun _ _ => fits_point
    | 0, index + 1 | 1, index | number + 2, index =>
      exact fun _ _ _ stays used _ => .ended stays used (fun _ same => by cases same; rfl)
        fun _ same => by cases same; simp [HostValue.references]
  function code := by
    match code with
    | 0 => exact keepPair_honest fun _ _ _ _ => trivial
    | code + 1 =>
      exact fun _ _ _ stays used _ => .ended stays used (fun _ same => by cases same; rfl)
        fun _ same => by cases same; simp [HostValue.references]
  receiver code style := by
    match code with
    | 0 => exact keepPair_honest fun _ _ => fits_point
    | code + 1 =>
      exact fun _ _ _ stays used _ => .ended stays used (fun _ same => by cases same; rfl)
        fun _ same => by cases same; simp [HostValue.references]
  factory code style := by
    match code with
    | 0 => cases style
    | code + 1 => cases style
  product code style := by
    match code with
    | 0 => cases style
    | code + 1 => cases style
  nativeFunction _ _ _ _ _ _ := .raise _
  nativeGetter _ _ _ _ _ := .raise _
  nativeSetter _ _ _ _ _ _ := .raise _
  nativeMaker _ _ _ _ _ _ := .raise _
  nativeAllocator _ _ _ _ := .raise _

end Figures

end HostBridge
