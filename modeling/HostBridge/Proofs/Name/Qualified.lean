import HostBridge.Proofs.Name.Segment

/-!
# Names derived from qualified names

A qualified name is a head, segments behind it, and marks of closures at its end.  The head and the
segments are identifiers with or without generic arguments, where the arguments hold qualified names
themselves; the head can also be a type as a trait, and segments can be closures.

An item that is exported without a name of its own is called after an identifier of its qualified
name.  That is the final one as long as nothing in front of it is in angle brackets.  Otherwise the
name is cut at the first bracket: the identifier that is shown is the first one with arguments, and
none is shown if the head is a type as a trait.
-/

namespace HostBridge.Name

/-! ## Qualified names -/

/-- Text in which every angle bracket has its partner. -/
inductive Paired : List Char → Prop
  | nil : Paired []
  | plain {char : Char} (opening : char ≠ '<') (closing : char ≠ '>') : Paired [char]
  | append {front back : List Char} : Paired front → Paired back → Paired (front ++ back)
  | bracketed {text : List Char} : Paired text → Paired ('<' :: text ++ ['>'])

/-- What can stand between angle brackets. -/
structure Enclosed where
  text : List Char
  paired : Paired text

/-- An identifier with or without generic arguments. -/
structure Item where
  identifier : Identifier
  arguments : Option Enclosed

inductive Segment where
  | named (item : Item)
  | closure

/-- How a qualified name begins. -/
inductive Head where
  | named (item : Item)
  /-- A type as a trait, in angle brackets. -/
  | qualifiedSelf (subject trait : Enclosed)

/-- A qualified name.  Marks of closures at its end are counted; others are segments. -/
structure Qualified where
  head : Head
  body : List Segment
  marks : Nat
  ended : body.getLast? ≠ some .closure

def Item.text (item : Item) : List Char :=
  match item.arguments with
  | some arguments => item.identifier.text ++ ('<' :: arguments.text ++ ['>'])
  | none => item.identifier.text

namespace Segment

def text : Segment → List Char
  | .named item => item.text
  | .closure => closureMark

def identifier? : Segment → Option Identifier
  | .named item => some item.identifier
  | .closure => none

/-- A segment with generic arguments. -/
def bracketed : Segment → Bool
  | .named item => item.arguments.isSome
  | .closure => false

end Segment

def Head.text : Head → List Char
  | .named item => item.text
  | .qualifiedSelf subject trait => '<' :: (subject.text ++ " as ".toList ++ trait.text) ++ ['>']

/-- Segments, each behind a separator. -/
def trail (segments : List Segment) : List Char :=
  segments.flatMap fun segment => [':', ':'] ++ segment.text

namespace Qualified

variable (name : Qualified)

/-- The text in front of the marks at the end. -/
def path : List Char := name.head.text ++ trail name.body

def text : List Char := name.path ++ closures name.marks

def declared : String := String.ofList name.text

/-- The segments up to the marks at the end; a type as a trait is not among them. -/
def segments : List Segment :=
  match name.head with
  | .named item => .named item :: name.body
  | .qualifiedSelf _ _ => name.body

/-- The name begins with a type as a trait. -/
def OnSelf : Prop := ∃ subject trait, name.head = .qualifiedSelf subject trait

/-- The identifier of the final segment. -/
def final? : Option Identifier := name.segments.getLast?.bind Segment.identifier?

/-- The identifier that the exported name is made of. -/
def shown? : Option Identifier :=
  match name.head with
  | .named _ =>
    ((name.segments.find? Segment.bracketed).or name.segments.getLast?).bind Segment.identifier?
  | .qualifiedSelf _ _ => none

/-- No angle brackets are in front of the final segment. -/
structure Straight : Prop where
  head : ¬name.OnSelf
  body : ∀ segment ∈ name.segments.dropLast, segment.bracketed = false

/-- What numbered names begin with. -/
def stem : String :=
  match name.shown? with
  | some identifier => identifier.snake ++ "_closure"
  | none => "closure"

end Qualified

/-! ## Angle brackets -/

namespace Paired

theorem of_plain {text : List Char}
    (plain : text.all (fun char => char ≠ '<' ∧ char ≠ '>') = true) :
    Paired text := by
  induction text with
  | nil => exact .nil
  | cons char text ih =>
    obtain ⟨first, rest⟩ := Bool.and_eq_true_iff.mp plain
    obtain ⟨opening, closing⟩ := of_decide_eq_true first
    exact .append (.plain opening closing) (ih rest)

theorem flatMap {Part : Type} {parts : List Part} {text : Part → List Char}
    (each : ∀ part, Paired (text part)) : Paired (parts.flatMap text) := by
  induction parts with
  | nil => exact .nil
  | cons part parts ih => exact .append (each part) ih

end Paired

theorem paired_closureMark : Paired closureMark := .of_plain (by decide)

theorem Identifier.paired (identifier : Identifier) : Paired identifier.text := by
  apply Paired.of_plain
  rw [List.all_eq_true]
  intro char member
  apply decide_eq_true
  constructor
  · rintro rfl
    exact identifier.lacks (by decide) member
  · rintro rfl
    exact identifier.lacks (by decide) member

theorem Item.paired (item : Item) : Paired item.text := by
  rw [text]
  cases item.arguments with
  | none => exact item.identifier.paired
  | some arguments => exact item.identifier.paired.append arguments.paired.bracketed

theorem Segment.paired (segment : Segment) : Paired segment.text := by
  cases segment with
  | named item => exact item.paired
  | closure => exact paired_closureMark

theorem Head.paired (head : Head) : Paired head.text := by
  cases head with
  | named item => exact item.paired
  | qualifiedSelf subject trait =>
    have between : Paired " as ".toList := .of_plain (by decide)
    exact .bracketed ((subject.paired.append between).append trait.paired)

/-- Every angle bracket of a qualified name has its partner, so such names can stand in angle
brackets again. -/
theorem Qualified.paired (name : Qualified) : Paired name.text := by
  have separator : Paired [':', ':'] := .of_plain (by decide)
  have body : Paired (trail name.body) := .flatMap fun segment => separator.append segment.paired
  have marks : Paired (closures name.marks) := by
    induction name.marks with
    | zero => exact .nil
    | succ marks ih =>
      rw [closures_succ]
      exact ih.append (separator.append paired_closureMark)
  exact (name.head.paired.append body).append marks

/-- Generic arguments that are qualified names. -/
def Enclosed.names (first : Qualified) (rest : List Qualified) : Enclosed where
  text := first.text ++ rest.flatMap fun name => ", ".toList ++ name.text
  paired :=
    have between : Paired ", ".toList := .of_plain (by decide)
    first.paired.append (.flatMap fun name => between.append name.paired)

/-! ## The identifier that is shown -/

section

variable {text : List Char}

theorem Opened.append {back : List Char} (opened : Opened back) (inhabited : back ≠ []) :
    Opened (text ++ back) := by
  rwa [Opened, List.getLast?_append_of_ne_nil _ inhabited]

theorem Opened.bracketed (text : List Char) : Opened (text ++ ['>']) := by
  rw [Opened, List.getLast?_concat]
  decide

theorem Identifier.opened (identifier : Identifier) : Opened identifier.text := by
  intro last
  exact identifier.lacks (by decide) (List.mem_of_getLast? last)

theorem Item.opened (item : Item) : Opened item.text := by
  rw [text]
  cases item.arguments with
  | none => exact item.identifier.opened
  | some arguments =>
    apply Opened.append
    · exact Opened.bracketed _
    · exact List.cons_ne_nil _ _

theorem Item.text_ne_nil (item : Item) : item.text ≠ [] := by
  rw [text]
  cases item.arguments with
  | none => exact item.identifier.named
  | some arguments => exact List.append_ne_nil_of_left_ne_nil item.identifier.named _

theorem Head.opened (head : Head) : Opened head.text := by
  cases head with
  | named item => exact item.opened
  | qualifiedSelf subject trait => exact Opened.bracketed _

/-- Up to its marks a qualified name does not end like a mark. -/
theorem Qualified.opened (name : Qualified) : Opened name.path := by
  rw [path]
  rcases List.eq_nil_or_concat' name.body with empty | ⟨before, last, split⟩
  · rw [empty, trail, List.flatMap_nil, List.append_nil]
    exact name.head.opened
  · cases last with
    | closure =>
      have ended := name.ended
      rw [split, List.getLast?_concat] at ended
      exact absurd rfl ended
    | named item =>
      rw [split, trail, List.flatMap_append, List.flatMap_singleton, ← List.append_assoc,
        ← List.append_assoc]
      exact item.opened.append item.text_ne_nil

end

/-- A segment without generic arguments holds no angle brackets. -/
theorem Segment.bare {segment : Segment} (plain : segment.bracketed = false) :
    '<' ∉ segment.text := by
  cases segment with
  | closure =>
    rw [text]
    decide
  | named item =>
    rw [bracketed, Option.isSome_eq_false_iff, Option.isNone_iff_eq_none] at plain
    rw [text, Item.text, plain]
    exact item.identifier.lacks (by decide)

/-- What is in front of a segment ends with a separator, and without generic arguments there it holds
no angle brackets. -/
theorem exists_front {first : Item} {body before after : List Segment} {segment : Segment}
    (split : .named first :: body = before ++ segment :: after)
    (plain : ∀ segment ∈ before, segment.bracketed = false) :
    ∃ text, Front text ∧ first.text ++ trail body = text ++ segment.text ++ trail after := by
  cases before with
  | nil =>
    cases split
    exact ⟨[], ⟨List.not_mem_nil, .inl rfl⟩, rfl⟩
  | cons head before =>
    cases split
    obtain ⟨plainFirst, plain⟩ := List.forall_mem_cons.mp plain
    have bareFirst : '<' ∉ first.text := Segment.bare plainFirst
    have bare : '<' ∉ trail before := by
      intro member
      obtain ⟨segment, inside, here⟩ := List.mem_flatMap.mp member
      rcases List.mem_append.mp here with separator | here
      · revert separator
        decide
      · exact Segment.bare (plain segment inside) here
    refine ⟨first.text ++ trail before ++ [':', ':'], ⟨?_, .inr (List.suffix_append _ _)⟩, ?_⟩
    · simp [bareFirst, bare]
    · simp [trail]

/-- The final segment is not a closure. -/
theorem exists_last (first : Item) {body : List Segment} (ended : body.getLast? ≠ some .closure) :
    ∃ before item, .named first :: body = before ++ [Segment.named item] := by
  rcases List.eq_nil_or_concat' body with rfl | ⟨before, last, rfl⟩
  · exact ⟨[], first, rfl⟩
  · cases last with
    | closure =>
      rw [List.getLast?_concat] at ended
      exact absurd rfl ended
    | named item => exact ⟨.named first :: before, item, rfl⟩

namespace Qualified

variable {name : Qualified}

/-- The final segment of a name, as it is cut, is the identifier that is shown. -/
theorem lastSegment_path (name : Qualified) :
    lastSegment name.path = (name.shown?.map Identifier.text).getD [] := by
  rw [path, shown?, segments]
  cases name.head with
  | qualifiedSelf subject trait => exact lastSegment_bracketed [] _
  | named first =>
    dsimp only [Head.text]
    cases found : (Segment.named first :: name.body).find? Segment.bracketed with
    | some segment =>
      obtain ⟨bracketed, before, after, split, plain⟩ := List.find?_eq_some_iff_append.mp found
      obtain ⟨text, front, same⟩ := exists_front split (by simpa using plain)
      cases segment with
      | closure => cases bracketed
      | named item =>
        obtain ⟨arguments, given⟩ := Option.isSome_iff_exists.mp bracketed
        rw [same, Segment.text, Item.text, given]
        dsimp only
        rw [List.append_assoc, List.append_assoc, List.cons_append, List.cons_append,
          ← List.append_assoc, lastSegment_bracketed, lastSegment_identifier front]
        rfl
    | none =>
      have plain : ∀ segment ∈ Segment.named first :: name.body, segment.bracketed = false := by
        simpa using found
      obtain ⟨before, item, split⟩ := exists_last first name.ended
      rw [split] at plain
      obtain ⟨text, front, same⟩ := exists_front split
        fun segment member => plain segment (List.mem_append_left _ member)
      have without : item.arguments = none := by
        have last := plain (.named item) (List.mem_append_right _ (List.mem_singleton_self _))
        rwa [Segment.bracketed, Option.isSome_eq_false_iff, Option.isNone_iff_eq_none] at last
      rw [same, split, List.getLast?_concat, Segment.text, Item.text, without]
      dsimp only [trail]
      rw [List.flatMap_nil, List.append_nil, lastSegment_identifier front]
      rfl

/-- None is shown exactly for a name that begins with a type as a trait. -/
theorem shown?_eq_none_iff : name.shown? = none ↔ name.OnSelf := by
  rw [shown?, OnSelf, segments]
  cases name.head with
  | qualifiedSelf subject trait => exact ⟨fun _ => ⟨subject, trait, rfl⟩, fun _ => rfl⟩
  | named first =>
    constructor
    · intro nothing
      obtain ⟨before, item, split⟩ := exists_last first name.ended
      dsimp only at nothing
      cases found : (Segment.named first :: name.body).find? Segment.bracketed with
      | none =>
        rw [found, split, List.getLast?_concat] at nothing
        cases nothing
      | some segment =>
        rw [found] at nothing
        cases segment with
        | closure => cases List.find?_some found
        | named item => cases nothing
    · rintro ⟨subject, trait, ⟨⟩⟩

/-- With no brackets in front of it the final identifier is the one that is shown. -/
theorem Straight.shown? (straight : name.Straight) : name.shown? = name.final? := by
  obtain ⟨head, body⟩ := straight
  rw [OnSelf] at head
  rw [Qualified.shown?, final?, segments] at *
  cases begins : name.head with
  | qualifiedSelf subject trait => exact absurd ⟨subject, trait, begins⟩ head
  | named first =>
    rw [begins] at body
    obtain ⟨before, item, split⟩ := exists_last first name.ended
    dsimp only at body ⊢
    rw [split, List.dropLast_concat] at body
    have front : before.find? Segment.bracketed = none := by simpa using body
    rw [split, List.getLast?_concat, List.find?_append, front, Option.none_or, List.find?_singleton]
    split <;> rfl

/-! ## Derived names -/

@[simp]
theorem toList_declared (name : Qualified) : name.declared.toList = name.text :=
  String.toList_ofList

theorem not_isClosure (unmarked : name.marks = 0) : ¬IsClosure name.declared := by
  apply not_isClosure_of_opened
  rw [toList_declared, text, unmarked]
  exact (List.append_nil _).symm ▸ name.opened

theorem isClosure (marked : name.marks ≠ 0) : IsClosure name.declared := by
  obtain ⟨marks, counted⟩ := Nat.exists_eq_succ_of_ne_zero marked
  rw [IsClosure, toList_declared, text, counted]
  exact closureMark_suffix_closures _ _

theorem exposed_declared (unmarked : name.marks = 0) :
    exposed name.declared = (name.shown?.map Identifier.snake).getD "" := by
  have whole : name.text = name.path := by
    rw [text, unmarked]
    exact List.append_nil _
  rw [exposed, toList_declared, whole, lastSegment_path]
  cases name.shown? <;> rfl

/-- The owner in the name of a closure is the identifier that is shown. -/
theorem closureStem_declared (marked : name.marks ≠ 0) : closureStem name.declared = name.stem := by
  obtain ⟨marks, counted⟩ := Nat.exists_eq_succ_of_ne_zero marked
  rw [closureStem, toList_declared, text, counted, closureOwner?_closures name.opened,
    lastSegment_path, stem]
  cases name.shown? with
  | none => rfl
  | some identifier =>
    dsimp only [Option.map_some, Option.getD_some]
    rw [if_neg (mt List.isEmpty_iff.mp identifier.named)]
    rfl

end Qualified

theorem candidate_ne_empty (base : String) (number : Nat) : candidate base number ≠ "" := by
  intro empty
  have nothing := congrArg String.toList empty
  simp [candidate] at nothing

/--
An item without a name of its own is called after the identifier that is shown, which is that of the
final segment unless angle brackets are in front of it; a closure is called after that of the item
which it is defined in, with the least number that is free.  The name is empty exactly for an item
that is no closure and whose qualified name begins with a type as a trait.
-/
theorem Qualified.derive_declared (name : Qualified) (names : List String) :
    (name.marks = 0 →
      derive "" name.declared names = (name.shown?.map Identifier.snake).getD "") ∧
    (name.marks ≠ 0 → ∃ number, LeastFree names name.stem number ∧
      derive "" name.declared names = candidate name.stem number) ∧
    (name.Straight → name.shown? = name.final?) ∧
    (derive "" name.declared names = "" ↔ name.marks = 0 ∧ name.OnSelf) := by
  have unmarked : name.marks = 0 →
      derive "" name.declared names = (name.shown?.map Identifier.snake).getD "" := by
    intro none
    rw [derive_of_not_isClosure (not_isClosure none), exposed_declared none]
  have marked : name.marks ≠ 0 → ∃ number, LeastFree names name.stem number ∧
      derive "" name.declared names = candidate name.stem number := by
    intro some
    obtain ⟨number, -, least⟩ := exists_leastFree names name.stem
    rw [← closureStem_declared some] at least ⊢
    exact ⟨number, least, derive_of_isClosure (isClosure some) least⟩
  refine ⟨unmarked, marked, Straight.shown?, ?_⟩
  constructor
  · intro empty
    by_cases none : name.marks = 0
    · refine ⟨none, shown?_eq_none_iff.mp ?_⟩
      rw [unmarked none] at empty
      cases shown : name.shown? with
      | none => rfl
      | some identifier =>
        rw [shown] at empty
        exact absurd empty identifier.snake_ne_empty
    · obtain ⟨number, -, same⟩ := marked none
      rw [same] at empty
      exact absurd empty (candidate_ne_empty _ _)
  · rintro ⟨none, onSelf⟩
    rw [unmarked none, shown?_eq_none_iff.mpr onSelf]
    rfl

namespace Figures

def app : Identifier := ⟨"app".toList, by decide, by decide⟩

def foo : Identifier := ⟨"Foo".toList, by decide, by decide⟩

def wrap : Identifier := ⟨"wrap".toList, by decide, by decide⟩

def make : Identifier := ⟨"make".toList, by decide, by decide⟩

def natural : Identifier := ⟨"u8".toList, by decide, by decide⟩

/-- An item of the program, with the marks that stand behind it. -/
def item (last : Item) (marks : Nat) : Qualified := ⟨.named ⟨app, none⟩, [.named last], marks, nofun⟩

/-- A type with an argument. -/
def generic : Item := ⟨foo, some (.names ⟨.named ⟨natural, none⟩, [], 0, nofun⟩ [])⟩

/-- A closure in a function that is generic in a generic type. -/
def inner : Qualified := item ⟨wrap, some (.names (item generic 0) [])⟩ 1

/-- A function of a generic type. -/
def inherent : Qualified := ⟨.named ⟨app, none⟩, [.named generic, .named ⟨make, none⟩], 0, nofun⟩

/-- A function of a type as a trait. -/
def implemented : Qualified :=
  ⟨.qualifiedSelf (.names (item ⟨foo, none⟩ 0) []) (.names (item ⟨wrap, none⟩ 0) []),
    [.named ⟨make, none⟩], 0, nofun⟩

/-- A closure is called after the function that it is defined in, which is generic. -/
theorem derive_declared_inner :
    inner.declared = "app::wrap<app::Foo<u8>>::\x7b\x7bclosure\x7d\x7d" ∧
      inner.Straight ∧ inner.final? = some wrap ∧ ∃ number,
        LeastFree ["wrap_closure_0"] "wrap_closure" number ∧
          derive "" inner.declared ["wrap_closure_0"] = candidate "wrap_closure" number := by
  have straight : inner.Straight := ⟨nofun, by decide⟩
  obtain ⟨-, marked, shown, -⟩ := inner.derive_declared ["wrap_closure_0"]
  have stem : inner.stem = "wrap_closure" := by decide
  obtain ⟨number, least, same⟩ := marked (by decide)
  rw [stem] at least same
  exact ⟨by decide, straight, rfl, number, least, same⟩

/-- Angle brackets in front of the final segment: the function is called after the type, or has an
empty name. -/
theorem make_missed :
    inherent.declared = "app::Foo<u8>::make" ∧ inherent.final? = some make ∧
      derive "" inherent.declared [] = "foo" ∧
    implemented.declared = "<app::Foo as app::wrap>::make" ∧ implemented.final? = some make ∧
      derive "" implemented.declared [] = "" ∧ make.snake = "make" := by
  refine ⟨by decide, rfl, by decide, by decide, rfl, by decide, by decide⟩

end Figures

end HostBridge.Name
