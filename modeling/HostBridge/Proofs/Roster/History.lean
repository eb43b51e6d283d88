import HostBridge.Proofs.Roster.Chain

/-!
# Histories of rosters

A roster begins empty.  References that are not linked enter, references leave, whether
they are linked or not, and all members are forgotten at once.  In what order ever this
is done, the roster is the chain of those who have entered and have neither left nor been
forgotten since.
-/

namespace HostBridge.Roster

/-- A change of a roster. -/
inductive Edit where
  | enter (ref : Ref)
  | leave (ref : Ref)
  | forget

namespace Edit

/-- Make a change. -/
def run (roster : Roster) : Edit → Roster
  | enter ref => roster.pushFront ref
  | leave ref => roster.unlink ref
  | forget => roster.detachAll

/-- Only who is not linked may enter. -/
def Allowed (roster : Roster) : Edit → Prop
  | enter ref => roster.linked ref = false
  | _ => True

/-- Whether a change takes somebody off a roster. -/
def takes (ref : Ref) : Edit → Bool
  | enter _ => false
  | leave other => other = ref
  | forget => true

end Edit

/-- The roster that is left by allowed changes, the first of which is made on the roster
without members. -/
inductive Edited : List Edit → Roster → Prop
  | start : Edited [] .empty
  | edit {edits : List Edit} {roster : Roster} (before : Edited edits roster) (edit : Edit)
      (allowed : edit.Allowed roster) : Edited (edits ++ [edit]) (edit.run roster)

/-- Those who have entered and have not been taken off since, the latest first. -/
def standing : List Edit → List Ref
  | [] => []
  | .enter ref :: later => standing later ++ if later.any (Edit.takes ref) then [] else [ref]
  | _ :: later => standing later

/-- A roster is a chain of some members, forwards and backwards, and of nobody else. -/
structure Chains (roster : Roster) (members : List Ref) : Prop where
  /-- From the first member on, each one leads to the next, and the last one to nobody. -/
  forwards : Follows roster.next roster.first members
  /-- From the last member on, each one leads to the previous, and the first one to nobody. -/
  backwards : Follows roster.previous members.getLast? members.reverse
  distinct : members.Nodup
  linked : ∀ ref, roster.linked ref = true ↔ ref ∈ members
  bare : ∀ ref, ref ∉ members → roster.previous ref = none ∧ roster.next ref = none
  size : roster.size = members.length
  /-- The walk visits the members. -/
  walked : roster.members = members

theorem chains_ofList {members : List Ref} (distinct : members.Nodup) :
    (ofList members).Chains members where
  forwards := follows_next [] members distinct
  backwards := by
    have whole : (members ++ []).Nodup := by rwa [List.append_nil]
    have back := follows_previous members [] whole
    rwa [List.append_nil] at back
  distinct := distinct
  linked _ := linked_chain
  bare ref absent := by
    have detached : (ofList members).link ref = .detached := chain_of_notMem absent
    exact ⟨congrArg RosterLink.previous detached, congrArg RosterLink.next detached⟩
  size := rfl
  walked := members_ofList distinct

/-! ## Who is standing after one more change -/

theorem standing_enter (edits : List Edit) (ref : Ref) :
    standing (edits ++ [.enter ref]) = ref :: standing edits := by
  induction edits with
  | nil => rfl
  | cons first later ih =>
    cases first with
    | enter other => simp [standing, ih, Edit.takes]
    | leave other => exact ih
    | forget => exact ih

theorem standing_leave (edits : List Edit) (ref : Ref) :
    standing (edits ++ [.leave ref]) = (standing edits).filter (· != ref) := by
  induction edits with
  | nil => rfl
  | cons first later ih =>
    cases first with
    | enter other =>
      simp only [List.cons_append, standing, ih, List.any_append, List.filter_append]
      by_cases same : ref = other
      · cases taken : later.any (Edit.takes other) <;> simp [Edit.takes, same]
      · have kept : other ≠ ref := Ne.symm same
        cases taken : later.any (Edit.takes other) <;> simp [Edit.takes, same, kept]
    | leave other => exact ih
    | forget => exact ih

theorem standing_forget (edits : List Edit) : standing (edits ++ [.forget]) = [] := by
  induction edits with
  | nil => rfl
  | cons first later ih =>
    cases first with
    | enter other => simp [standing, ih, Edit.takes]
    | leave other => exact ih
    | forget => exact ih

/-! ## The roster after a history -/

variable {edits : List Edit} {roster : Roster}

/-- One change of the chain of those who are standing leaves the chain of those who are
standing then. -/
theorem Edit.run_ofList (edit : Edit) (distinct : (standing edits).Nodup)
    (allowed : edit.Allowed (ofList (standing edits))) :
    (standing (edits ++ [edit])).Nodup ∧
      edit.run (ofList (standing edits)) = ofList (standing (edits ++ [edit])) := by
  cases edit with
  | enter ref =>
    have absent : ref ∉ standing edits := fun inside =>
      Bool.false_ne_true (allowed.symm.trans (linked_chain.mpr inside))
    have longer : (ref :: standing edits).Nodup := List.nodup_cons.mpr ⟨absent, distinct⟩
    rw [standing_enter]
    exact ⟨longer, pushFront_ofList longer⟩
  | leave ref =>
    rw [standing_leave, ← distinct.erase_eq_filter]
    exact ⟨distinct.erase ref, unlink_ofList ref distinct⟩
  | forget =>
    rw [standing_forget]
    exact ⟨.nil, detachAll_ofList distinct⟩

/-- A roster is the chain of those who are standing. -/
theorem Edited.eq_ofList (edited : Edited edits roster) :
    (standing edits).Nodup ∧ roster = ofList (standing edits) := by
  induction edited with
  | start => exact ⟨.nil, rfl⟩
  | edit before edit allowed ih =>
    obtain ⟨distinct, rfl⟩ := ih
    exact edit.run_ofList distinct allowed

/--
At any time a roster is the chain of those who have entered and have not been taken off since,
the latest first; nobody else is linked or has neighbours.  Its size is their number, so that
whoever is linked can be counted out, and who leaves takes nobody else along and out of order.
-/
theorem Edited.faithful (edited : Edited edits roster) :
    roster.Chains (standing edits) ∧ (∀ ref, roster.linked ref = true → 0 < roster.size) ∧
      ∀ ref, (roster.unlink ref).Chains ((standing edits).filter (· != ref)) := by
  obtain ⟨distinct, same⟩ := edited.eq_ofList
  have chains : roster.Chains (standing edits) := same ▸ chains_ofList distinct
  refine ⟨chains, fun ref linked => ?_, fun ref => ?_⟩
  · rw [chains.size]
    exact List.length_pos_of_mem ((chains.linked ref).mp linked)
  · rw [same, unlink_ofList ref distinct, distinct.erase_eq_filter]
    exact chains_ofList (distinct.filter _)

/-- Members leave from the middle, the front and the end, one of them twice; the last two are
forgotten, and one of these leaves again and comes back. -/
theorem Edited.faithful_returned : ∃ edits roster, Edited edits roster ∧
    standing edits = [⟨6⟩, ⟨4⟩] ∧ roster.Chains [⟨6⟩, ⟨4⟩] ∧
      (∀ ref, roster.linked ref = true → 0 < roster.size) ∧
      (roster.unlink ⟨4⟩).Chains [⟨6⟩] := by
  have entered := (((Edited.start.edit (.enter ⟨1⟩) rfl).edit (.enter ⟨2⟩) rfl).edit
    (.enter ⟨3⟩) rfl).edit (.enter ⟨4⟩) rfl
  have left := (((entered.edit (.leave ⟨2⟩) trivial).edit (.leave ⟨2⟩) trivial).edit
    (.leave ⟨4⟩) trivial).edit (.leave ⟨1⟩) trivial
  have returned := ((((left.edit (.enter ⟨4⟩) rfl).edit .forget trivial).edit
    (.leave ⟨4⟩) trivial).edit (.enter ⟨4⟩) rfl).edit (.enter ⟨6⟩) rfl
  obtain ⟨chains, counted, leaves⟩ := returned.faithful
  exact ⟨_, _, returned, rfl, chains, counted, leaves ⟨4⟩⟩

end HostBridge.Roster
