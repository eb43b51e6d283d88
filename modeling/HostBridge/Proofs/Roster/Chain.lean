import Mathlib.Data.List.Induction
import Mathlib.Data.List.Nodup
import HostBridge.Bridge.Roster

/-!
# Rosters of lists

A list without repetitions has one roster, in which every member is linked to its
neighbours in the list and everybody else is detached.  Entering at the front and
leaving are what they are on lists, and the walk along the chain gives the list
back.  So a roster never has to be looked at but as the list of its members.
-/

namespace HostBridge

/-- What somebody knows of their place in a chain. -/
structure RosterLink where
  previous : Option Ref
  next : Option Ref
  linked : Bool

/-- What somebody knows who is in no chain. -/
def RosterLink.detached : RosterLink := ⟨none, none, false⟩

namespace Roster

/-- What somebody knows of a roster. -/
def link (roster : Roster) (ref : Ref) : RosterLink :=
  ⟨roster.previous ref, roster.next ref, roster.linked ref⟩

/-! ## Chains -/

/-- What everybody knows when the members of a list are chained, the first of which
comes after `previous`. -/
def chain (previous : Option Ref) : List Ref → Ref → RosterLink
  | [], _ => .detached
  | head :: rest, ref =>
    if ref = head then ⟨previous, rest.head?, true⟩ else chain (some head) rest ref

/-- The roster of a list of members. -/
def ofList (members : List Ref) : Roster where
  first := members.head?
  size := members.length
  previous ref := (chain none members ref).previous
  next ref := (chain none members ref).next
  linked ref := (chain none members ref).linked

variable {roster : Roster} {members front rest : List Ref} {ref : Ref} {previous : Option Ref}

@[simp]
theorem ofList_nil : ofList [] = empty := rfl

@[simp]
theorem link_ofList (members : List Ref) (ref : Ref) :
    (ofList members).link ref = chain none members ref := rfl

/-- A roster is that of a list if everybody knows so. -/
theorem eq_ofList (first : roster.first = members.head?) (size : roster.size = members.length)
    (links : ∀ ref, roster.link ref = chain none members ref) : roster = ofList members := by
  obtain ⟨_, _, previous, next, linked⟩ := roster
  have fields := fun ref => RosterLink.mk.inj (links ref)
  obtain rfl : previous = _ := funext fun ref => (fields ref).1
  obtain rfl : next = _ := funext fun ref => (fields ref).2.1
  obtain rfl : linked = _ := funext fun ref => (fields ref).2.2
  subst first size
  rfl

theorem chain_of_notMem (absent : ref ∉ members) : chain previous members ref = .detached := by
  induction members generalizing previous with
  | nil => rfl
  | cons head rest ih =>
    rw [List.mem_cons, not_or] at absent
    rw [chain, if_neg absent.1, ih absent.2]

/-- The members are those who are linked. -/
theorem linked_chain : (chain previous members ref).linked = true ↔ ref ∈ members := by
  induction members generalizing previous with
  | nil => simp [chain, RosterLink.detached]
  | cons head rest ih =>
    rw [chain, List.mem_cons]
    split <;> simp_all

/-- A list may be made to come after something else. -/
theorem chain_after (before previous : Option Ref) (members : List Ref) (ref : Ref) :
    chain before members ref =
      if members.head? = some ref then { chain previous members ref with previous := before }
      else chain previous members ref := by
  cases members with
  | nil => rfl
  | cons head rest =>
    rw [chain, chain, List.head?_cons]
    by_cases same : ref = head
    · rw [if_pos same, if_pos same, if_pos (congrArg some same.symm)]
    · rw [if_neg same, if_neg same, if_neg fun first => same (Option.some.inj first).symm]

/-- Who is not in the front of a list comes after its last member. -/
theorem chain_append (outside : ref ∉ front) :
    chain previous (front ++ rest) ref = chain (front.getLast?.or previous) rest ref := by
  induction front generalizing previous with
  | nil => rfl
  | cons head front ih =>
    rw [List.mem_cons, not_or] at outside
    rw [List.cons_append, chain, if_neg outside.1, ih outside.2, List.getLast?_cons]
    cases front.getLast? <;> rfl

/-- What a member knows. -/
theorem chain_append_cons (outside : ref ∉ front) :
    chain none (front ++ ref :: rest) ref = ⟨front.getLast?, rest.head?, true⟩ := by
  rw [chain_append outside, chain, if_pos rfl, Option.or_none]

/-- When a member leaves, its neighbours come to know each other. -/
theorem chain_erase (distinct : (front ++ ref :: rest).Nodup) (other : Ref) :
    chain none (front ++ rest) other =
      if other = ref then .detached
      else
        let link := chain none (front ++ ref :: rest) other
        ⟨if rest.head? = some other then front.getLast? else link.previous,
          if front.getLast? = some other then rest.head? else link.next, link.linked⟩ := by
  obtain ⟨distinctFront, distinctRest, apart⟩ := List.nodup_append.mp distinct
  obtain ⟨absent, _⟩ := List.nodup_cons.mp distinctRest
  by_cases same : other = ref
  · have outside : ref ∉ front := fun inside => apart ref inside ref (List.mem_cons_self ..) rfl
    rw [if_pos same, chain_of_notMem]
    rw [same, List.mem_append]
    exact not_or.mpr ⟨outside, absent⟩
  rw [if_neg same]
  by_cases inside : other ∈ front
  · -- Only the last one in front gets another member behind it.
    have behind : rest.head? ≠ some other := fun first =>
      apart other inside other (List.mem_cons_of_mem _ (List.mem_of_head? first)) rfl
    obtain ⟨before, after, rfl, fresh⟩ := List.eq_append_cons_of_mem inside
    have last : (before ++ other :: after).getLast? = some other ↔ after = [] := by
      refine ⟨fun found => ?_, fun empty => by simp [empty]⟩
      cases after with
      | nil => rfl
      | cons second after =>
        have again : other ∈ second :: after := List.mem_of_getLast? (by simpa using found)
        exact absurd again (List.nodup_cons.mp (List.nodup_append.mp distinctFront).2.1).1
    rw [List.append_assoc, List.append_assoc, List.cons_append, List.cons_append,
      chain_append_cons fresh, chain_append_cons fresh]
    simp only [last, if_neg behind]
    cases after <;> simp
  · -- Only the first one behind gets another member in front of it.
    have before : front.getLast? ≠ some other := fun last => inside (List.mem_of_getLast? last)
    rw [chain_append inside, chain_append inside, chain, if_neg same, Option.or_none,
      chain_after front.getLast? (some ref)]
    simp only [if_neg before]
    split <;> rfl

/-! ## Members -/

/-- Who enters at the front is the first of the list. -/
theorem pushFront_ofList (distinct : (ref :: members).Nodup) :
    (ofList members).pushFront ref = ofList (ref :: members) := by
  refine eq_ofList rfl rfl fun other => ?_
  have absent := (List.nodup_cons.mp distinct).1
  rw [chain, chain_after (some ref) none]
  simp only [link, pushFront, ofList, write, Option.some.injEq]
  by_cases same : other = ref
  · have later : members.head? ≠ some ref := fun first => absent (List.mem_of_head? first)
    simp [same, later]
  · simp only [Ne.symm same, same, if_false]
    split <;> rfl

/-- Who leaves leaves the list. -/
theorem unlink_ofList (ref : Ref) (distinct : members.Nodup) :
    (ofList members).unlink ref = ofList (members.erase ref) := by
  by_cases inside : ref ∈ members
  · obtain ⟨front, rest, rfl, outside⟩ := List.eq_append_cons_of_mem inside
    have known : (ofList (front ++ ref :: rest)).link ref = ⟨front.getLast?, rest.head?, true⟩ :=
      chain_append_cons outside
    obtain ⟨previous, next, linked⟩ := RosterLink.mk.inj known
    rw [List.erase_append_right _ outside, List.erase_cons_head, unlink, if_pos linked]
    refine eq_ofList ?_ ?_ fun other => ?_
    · simp only [previous, next]
      cases front <;> rfl
    · simp [ofList]
    · rw [chain_erase distinct]
      simp only [link, write, previous, next, Option.some.injEq]
      by_cases same : other = ref
      · simp [same, RosterLink.detached]
      · simp only [Ne.symm same, same, if_false]
        rfl
  · have unlinked : ¬(ofList members).linked ref = true := fun linked =>
      inside (linked_chain.mp linked)
    rw [unlink, if_neg unlinked, List.erase_of_not_mem inside]

/-! ## Walks -/

/-- From `start` on, one step after the other visits a list of references and comes to
an end. -/
inductive Follows (step : Ref → Option Ref) : (start : Option Ref) → List Ref → Prop
  | ends : Follows step none []
  | visits {ref : Ref} {rest : List Ref} (later : Follows step (step ref) rest) :
    Follows step (some ref) (ref :: rest)

/-- It makes no difference where steps lead to from elsewhere. -/
theorem Follows.congr {step other : Ref → Option Ref} {start : Option Ref}
    (follows : Follows step start members) (same : ∀ ref ∈ members, other ref = step ref) :
    Follows other start members := by
  induction follows with
  | ends => exact .ends
  | @visits ref rest later ih =>
    have ahead := ih fun one member => same one (List.mem_cons_of_mem _ member)
    rw [← same ref (List.mem_cons_self ..)] at ahead
    exact .visits ahead

/-- A walk with enough steps visits what there is to be visited. -/
theorem walk_of_follows {start : Option Ref} (follows : Follows roster.next start members)
    {steps : Nat} (enough : members.length ≤ steps) : roster.walk steps start = members := by
  induction follows generalizing steps with
  | ends => cases steps <;> rfl
  | visits later ih =>
    obtain ⟨steps, rfl⟩ := Nat.exists_eq_succ_of_ne_zero (Nat.ne_zero_of_lt enough)
    rw [walk, ih (Nat.le_of_succ_le_succ enough)]

/-- Who is visited with enough steps is detached, and nobody else is concerned. -/
theorem link_detach_of_follows {start : Option Ref} (follows : Follows roster.next start members)
    (distinct : members.Nodup) {steps : Nat} (enough : members.length ≤ steps) (other : Ref) :
    (roster.detach steps start).link other =
      if other ∈ members then .detached else roster.link other := by
  induction members generalizing roster start steps with
  | nil =>
    cases follows
    cases steps <;> rfl
  | cons ref rest ih =>
    cases follows with
    | visits later =>
      obtain ⟨steps, rfl⟩ := Nat.exists_eq_succ_of_ne_zero (Nat.ne_zero_of_lt enough)
      obtain ⟨absent, distinct⟩ := List.nodup_cons.mp distinct
      have ahead : Follows (write (some ref) none roster.next) (roster.next ref) rest :=
        later.congr fun one member => if_neg fun same => absent (by cases same; exact member)
      rw [detach, ih ahead distinct (Nat.le_of_succ_le_succ enough)]
      by_cases same : other = ref
      · simp [same, absent, link, write, RosterLink.detached]
      · simp [same, Ne.symm same, link, write]

/-- From any member on, the chain of a list leads through what is behind it. -/
theorem follows_next (front rest : List Ref) (distinct : (front ++ rest).Nodup) :
    Follows (ofList (front ++ rest)).next rest.head? rest := by
  induction rest generalizing front with
  | nil => exact .ends
  | cons ref rest ih =>
    have outside : ref ∉ front := fun inside =>
      (List.nodup_append.mp distinct).2.2 ref inside ref (List.mem_cons_self ..) rfl
    have next : (ofList (front ++ ref :: rest)).next ref = rest.head? :=
      congrArg RosterLink.next (chain_append_cons outside)
    refine .visits ?_
    rw [next]
    rw [← List.singleton_append, ← List.append_assoc] at distinct ⊢
    exact ih _ distinct

/-- Backwards it leads through what is in front of it. -/
theorem follows_previous (front rest : List Ref) (distinct : (front ++ rest).Nodup) :
    Follows (ofList (front ++ rest)).previous front.getLast? front.reverse := by
  induction front using List.reverseRecOn generalizing rest with
  | nil => exact .ends
  | append_singleton front ref ih =>
    rw [List.append_assoc, List.singleton_append] at distinct ⊢
    have outside : ref ∉ front := fun inside =>
      (List.nodup_append.mp distinct).2.2 ref inside ref (List.mem_cons_self ..) rfl
    have previous : (ofList (front ++ ref :: rest)).previous ref = front.getLast? :=
      congrArg RosterLink.previous (chain_append_cons outside)
    rw [List.getLast?_append, List.getLast?_singleton, Option.some_or, List.reverse_append,
      List.reverse_singleton, List.singleton_append]
    refine .visits ?_
    rw [previous]
    exact ih _ distinct

/-- The members of the roster of a list are the list. -/
theorem members_ofList (distinct : members.Nodup) : (ofList members).members = members :=
  walk_of_follows (follows_next [] members distinct) (Nat.le_refl _)

/-- Forgetting every member leaves the roster that nobody has entered. -/
theorem detachAll_ofList (distinct : members.Nodup) : (ofList members).detachAll = empty := by
  refine (eq_ofList rfl rfl fun other => ?_).trans ofList_nil
  have detached := link_detach_of_follows (follows_next [] members distinct) distinct
    (Nat.le_refl _) other
  refine detached.trans ?_
  split
  · rfl
  · rename_i absent
    exact chain_of_notMem absent

/-- A roster is that of a list. -/
def Listed (roster : Roster) : Prop := ∃ members : List Ref, members.Nodup ∧ roster = ofList members

theorem Listed.detachAll {roster : Roster} (listed : roster.Listed) : roster.detachAll = empty := by
  obtain ⟨members, distinct, rfl⟩ := listed
  exact detachAll_ofList distinct

end Roster

end HostBridge
