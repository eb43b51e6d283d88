import HostBridge.Host.Value

/-!
# Places in values

What a write at one place does to what is read at another.  A place inside the
written one reads the new value, a place around it reads the old value with the
change in it, and a place that lies apart reads what it read before.
-/

namespace HostBridge.HostValue

/-- Places of which neither lies inside the other. -/
def Apart (left right : List Nat) : Prop := ¬left <+: right ∧ ¬right <+: left

/-- To write what is there changes nothing. -/
theorem put_at? {value part : HostValue} {path : List Nat} (present : value.at? path = some part) :
    value.put path part = value := by
  induction path generalizing value with
  | nil =>
    cases present
    rfl
  | cons index path ih =>
    rw [at?] at present
    rw [put]
    cases found : value.field? index with
    | none => rfl
    | some field =>
      rw [found] at present
      dsimp only at present ⊢
      rw [ih present]
      cases value with
      | struct fields =>
        obtain ⟨inside, rfl⟩ := List.getElem?_eq_some_iff.mp found
        rw [setField, List.set_getElem_self inside]
      | _ => cases found

/-- A write is read at its place and inside it. -/
theorem at?_put_inside {value old : HostValue} {path : List Nat} (new : HostValue)
    (rest : List Nat) (present : value.at? path = some old) :
    (value.put path new).at? (path ++ rest) = new.at? rest := by
  rw [at?_append, at?_put_same new present, Option.bind_some]

/-- Around a write, the change is read at the place that is left of it. -/
theorem at?_put_around {value part : HostValue} {path : List Nat} (rest : List Nat)
    (new : HostValue) (present : value.at? path = some part) :
    (value.put (path ++ rest) new).at? path = some (part.put rest new) := by
  induction path generalizing value with
  | nil =>
    cases present
    rfl
  | cons index path ih =>
    rw [at?] at present
    rw [List.cons_append, put, at?]
    cases found : value.field? index with
    | none => simp [found] at present
    | some field =>
      rw [found] at present
      dsimp only at present ⊢
      rw [field?_setField_same _ found]
      exact ih present

/-- A write is not seen at places that lie apart from its place. -/
theorem at?_put_apart {path other : List Nat} (value new : HostValue)
    (apart : Apart path other) : (value.put path new).at? other = value.at? other := by
  induction path generalizing value other with
  | nil => exact absurd (List.nil_prefix) apart.1
  | cons index path ih =>
    cases other with
    | nil => exact absurd (List.nil_prefix) apart.2
    | cons index' other =>
      rw [put]
      cases found : value.field? index with
      | none => rfl
      | some field =>
        dsimp only
        rw [at?, at?]
        by_cases same : index = index'
        · subst same
          rw [field?_setField_same _ found, found]
          refine ih field ⟨fun inside => apart.1 ?_, fun inside => apart.2 ?_⟩
          · exact (List.prefix_cons_inj index).mpr inside
          · exact (List.prefix_cons_inj index).mpr inside
        · rw [field?_setField_other _ _ same]

end HostBridge.HostValue
