import HostBridge.Object.Key

/-!
# Dicts

A dict keeps its entries in the order in which their keys first came, and an
index that maps the projection of each key to the position of its entry.
Writing to a present key changes the value and keeps both the first key object
and its position; removing an entry moves those behind it up by one, in the
index as well.

The index of a dict numbers its entries, and the dict carries the proof of it.
So a position that is found in the index is always one of an entry.
-/

namespace HostBridge

/-- An entry of a dict. -/
structure DictEntry where
  key : Ref
  value : Ref
  deriving DecidableEq

/-! ## Indices -/

/-- A finite map from the projections of keys to positions. -/
structure Index where
  slots : List (Key × Nat)
  deriving DecidableEq, Inhabited

namespace Index

def empty : Index := ⟨[]⟩

/-- The position of a projection. -/
def position? (index : Index) (projection : Key) : Option Nat :=
  (index.slots.find? (·.1 = projection)).map (·.2)

/-- Map a projection to a position. -/
def insert (index : Index) (projection : Key) (position : Nat) : Index :=
  ⟨(projection, position) :: index.slots.filter (·.1 ≠ projection)⟩

/-- Forget a projection. -/
def remove (index : Index) (projection : Key) : Index :=
  ⟨index.slots.filter (·.1 ≠ projection)⟩

/-- The position of an entry after the one at `gap` has gone. -/
def shift (gap position : Nat) : Nat := if gap < position then position - 1 else position

/-- Move the positions behind a gap up by one. -/
def closeGap (index : Index) (gap : Nat) : Index :=
  ⟨index.slots.map fun (projection, position) => (projection, shift gap position)⟩

variable (index : Index) (projection : Key)

@[simp]
theorem position?_empty : empty.position? projection = none := rfl

@[simp]
theorem position?_insert_same (position : Nat) :
    (index.insert projection position).position? projection = some position := by
  simp [position?, insert]

variable {projection} in
theorem position?_insert_other {other : Key} (position : Nat) (distinct : other ≠ projection) :
    (index.insert projection position).position? other = index.position? other := by
  have passed : projection ≠ other := distinct.symm
  simp only [position?, insert, List.find?_cons, passed, decide_false, List.find?_filter]
  congr 2
  funext slot
  by_cases here : slot.1 = other <;> simp [here, distinct]

@[simp]
theorem position?_remove_same : (index.remove projection).position? projection = none := by
  simp [position?, remove, List.find?_filter]

variable {projection} in
theorem position?_remove_other {other : Key} (distinct : other ≠ projection) :
    (index.remove projection).position? other = index.position? other := by
  simp only [position?, remove, List.find?_filter]
  congr 2
  funext slot
  by_cases here : slot.1 = other <;> simp [here, distinct]

@[simp]
theorem position?_closeGap (gap : Nat) :
    (index.closeGap gap).position? projection = (index.position? projection).map (shift gap) := by
  simp only [position?, closeGap, List.find?_map, Option.map_map]
  rfl

/-- Each position below a count is that of exactly one projection. -/
structure Numbers (count : Nat) : Prop where
  inside : ∀ {projection position}, index.position? projection = some position → position < count
  apart : ∀ {projection other position}, index.position? projection = some position →
    index.position? other = some position → other = projection
  onto : ∀ {position}, position < count → ∃ projection, index.position? projection = some position

namespace Numbers

variable {index} {projection} {count : Nat}

theorem empty : Index.empty.Numbers 0 where
  inside := nofun
  apart := nofun
  onto := nofun

/-- A new projection gets the next position. -/
theorem insert (numbers : index.Numbers count) (absent : index.position? projection = none) :
    (index.insert projection count).Numbers (count + 1) where
  inside := by
    intro other position found
    by_cases here : other = projection
    · subst here
      rw [position?_insert_same, Option.some.injEq] at found
      omega
    · rw [position?_insert_other index count here] at found
      exact Nat.lt_succ_of_lt (numbers.inside found)
  apart := by
    intro first second position found found'
    by_cases here : first = projection <;> by_cases there : second = projection
    · rw [here, there]
    · rw [here, position?_insert_same, Option.some.injEq] at found
      rw [position?_insert_other index count there] at found'
      exact absurd (numbers.inside found') (by omega)
    · rw [there, position?_insert_same, Option.some.injEq] at found'
      rw [position?_insert_other index count here] at found
      exact absurd (numbers.inside found) (by omega)
    · rw [position?_insert_other index count here] at found
      rw [position?_insert_other index count there] at found'
      exact numbers.apart found found'
  onto := by
    intro position inside
    by_cases last : position = count
    · exact ⟨projection, by rw [last, position?_insert_same]⟩
    · obtain ⟨other, found⟩ := numbers.onto (by omega : position < count)
      have distinct : other ≠ projection := by
        rintro rfl
        rw [absent] at found
        cases found
      exact ⟨other, by rw [position?_insert_other index count distinct, found]⟩

/-- When a projection is forgotten, the positions behind its own are moved up. -/
theorem remove {gap : Nat} (numbers : index.Numbers count)
    (found : index.position? projection = some gap) :
    ((index.remove projection).closeGap gap).Numbers (count - 1) := by
  have within := numbers.inside found
  -- What is left is another projection's, and that has another position.
  have left : ∀ {other position},
      ((index.remove projection).closeGap gap).position? other = some position →
        ∃ old, index.position? other = some old ∧ old ≠ gap ∧ shift gap old = position := by
    intro other position reading
    by_cases here : other = projection
    · simp [here] at reading
    · rw [position?_closeGap, position?_remove_other index here, Option.map_eq_some_iff] at reading
      obtain ⟨old, reading, moved⟩ := reading
      refine ⟨old, reading, ?_, moved⟩
      rintro rfl
      exact here (numbers.apart found reading)
  refine ⟨?_, ?_, ?_⟩
  · intro other position reading
    obtain ⟨old, reading', distinct, rfl⟩ := left reading
    have := numbers.inside reading'
    unfold shift
    split <;> omega
  · intro first second position reading reading'
    obtain ⟨old, found, distinct, moved⟩ := left reading
    obtain ⟨old', found', distinct', moved'⟩ := left reading'
    have same : old' = old := by
      unfold shift at moved moved'
      split at moved <;> split at moved' <;> omega
    subst same
    exact numbers.apart found found'
  · intro position inside
    have from' : ∃ old, old < count ∧ old ≠ gap ∧ shift gap old = position := by
      by_cases before : position < gap
      · exact ⟨position, by omega, by omega, by simp [shift]; omega⟩
      · exact ⟨position + 1, by omega, by omega, by simp [shift]; omega⟩
    obtain ⟨old, small, distinct, moved⟩ := from'
    obtain ⟨other, reading⟩ := numbers.onto small
    have apart : other ≠ projection := by
      rintro rfl
      rw [found, Option.some.injEq] at reading
      exact distinct reading.symm
    refine ⟨other, ?_⟩
    rw [position?_closeGap, position?_remove_other index apart, reading, Option.map_some, moved]

end Numbers

end Index

/-! ## Dicts -/

/-- An insertion-ordered mapping. -/
structure Dict where
  entries : List DictEntry
  index : Index
  numbered : index.Numbers entries.length
  deriving DecidableEq

namespace Dict

/-- The dict without entries. -/
def empty : Dict := ⟨[], .empty, .empty⟩

instance : Inhabited Dict := ⟨empty⟩

/-- The number of entries. -/
def size (dict : Dict) : Nat := dict.entries.length

/-- The key objects, in order. -/
def keys (dict : Dict) : List Ref := dict.entries.map (·.key)

/-- Whether there is an entry with a given projection. -/
def contains (dict : Dict) (projection : Key) : Bool := (dict.index.position? projection).isSome

/-- The entry with a given projection. -/
def lookup? (dict : Dict) (projection : Key) : Option DictEntry :=
  match found : dict.index.position? projection with
  | some position =>
    have := dict.numbered.inside found
    some dict.entries[position]
  | none => none

/-- The value under a given projection. -/
def get? (dict : Dict) (projection : Key) : Option Ref :=
  (dict.lookup? projection).map (·.value)

/-- Put a value under a key.  The value that it displaces is handed back. -/
def insert (dict : Dict) (projection : Key) (key value : Ref) : Option Ref × Dict :=
  match found : dict.index.position? projection with
  | some position =>
    have := dict.numbered.inside found
    (some dict.entries[position].value,
      { dict with
        entries := dict.entries.set position { dict.entries[position] with value }
        numbered := by rw [List.length_set]; exact dict.numbered })
  | none =>
    (none,
      { entries := dict.entries ++ [⟨key, value⟩]
        index := dict.index.insert projection dict.entries.length
        numbered := by rw [List.length_append]; exact dict.numbered.insert found })

/-- Remove the entry under a key and hand it out. -/
def remove (dict : Dict) (projection : Key) : Option DictEntry × Dict :=
  match found : dict.index.position? projection with
  | some position =>
    have := dict.numbered.inside found
    (some dict.entries[position],
      { entries := dict.entries.eraseIdx position
        index := (dict.index.remove projection).closeGap position
        numbered := by rw [List.length_eraseIdx_of_lt this]; exact dict.numbered.remove found })
  | none => (none, dict)

/-- Put a value under a key. -/
def set (dict : Dict) (projection : Key) (key value : Ref) : Dict :=
  (dict.insert projection key value).2

/-- Remove the entry under a key. -/
def erase (dict : Dict) (projection : Key) : Dict := (dict.remove projection).2

/-- Take all entries out of a dict. -/
def takeAll (dict : Dict) : List DictEntry × Dict := (dict.entries, empty)

/-- Keys and values in the order in which a dict that goes away gives them up. -/
def references (dict : Dict) : List Ref :=
  dict.entries.flatMap fun entry => [entry.key, entry.value]

/-! ## Reading back -/

variable (dict : Dict) {projection : Key} {position : Nat}

@[simp]
theorem lookup?_empty (projection : Key) : empty.lookup? projection = none := rfl

@[simp]
theorem get?_empty (projection : Key) : empty.get? projection = none := rfl

/-- An entry is the one at the position that the index has. -/
theorem lookup?_eq (projection : Key) :
    dict.lookup? projection = (dict.index.position? projection).bind (dict.entries[·]?) := by
  unfold lookup?
  split
  · rename_i position found
    simp [found, dict.numbered.inside found]
  · rename_i absent
    simp [absent]

variable {dict}

theorem insert_of_absent (absent : dict.index.position? projection = none) (key value : Ref) :
    (dict.insert projection key value).1 = none ∧
      (dict.insert projection key value).2.entries = dict.entries ++ [⟨key, value⟩] ∧
      (dict.insert projection key value).2.index =
        dict.index.insert projection dict.entries.length := by
  unfold insert
  split
  · rename_i found
    rw [absent] at found
    cases found
  · exact ⟨rfl, rfl, rfl⟩

theorem insert_of_found {entry : DictEntry}
    (found : dict.index.position? projection = some position)
    (there : dict.entries[position]? = some entry) (key value : Ref) :
    (dict.insert projection key value).1 = some entry.value ∧
      (dict.insert projection key value).2.entries =
        dict.entries.set position { entry with value } ∧
      (dict.insert projection key value).2.index = dict.index := by
  obtain ⟨within, rfl⟩ := List.getElem?_eq_some_iff.mp there
  unfold insert
  split
  · rename_i found'
    rw [found, Option.some.injEq] at found'
    subst found'
    exact ⟨rfl, rfl, rfl⟩
  · rename_i absent
    rw [found] at absent
    cases absent

theorem remove_of_absent (absent : dict.index.position? projection = none) :
    dict.remove projection = (none, dict) := by
  unfold remove
  split
  · rename_i found
    rw [absent] at found
    cases found
  · rfl

theorem remove_of_found {entry : DictEntry}
    (found : dict.index.position? projection = some position)
    (there : dict.entries[position]? = some entry) :
    (dict.remove projection).1 = some entry ∧
      (dict.remove projection).2.entries = dict.entries.eraseIdx position ∧
      (dict.remove projection).2.index = (dict.index.remove projection).closeGap position := by
  obtain ⟨within, rfl⟩ := List.getElem?_eq_some_iff.mp there
  unfold remove
  split
  · rename_i found'
    rw [found, Option.some.injEq] at found'
    subst found'
    exact ⟨rfl, rfl, rfl⟩
  · rename_i absent
    rw [found] at absent
    cases absent

variable (dict)

/-- Either the index leads to an entry, or there is none. -/
theorem position?_cases (projection : Key) :
    dict.index.position? projection = none ∨
      ∃ position entry, dict.index.position? projection = some position ∧
        dict.entries[position]? = some entry := by
  cases found : dict.index.position? projection with
  | none => exact .inl rfl
  | some position =>
    have within := dict.numbered.inside found
    exact .inr ⟨position, _, rfl, List.getElem?_eq_getElem within⟩

/-- A value that was put under a key is found under it. -/
@[simp]
theorem get?_set_same (projection : Key) (key value : Ref) :
    (dict.set projection key value).get? projection = some value := by
  rcases dict.position?_cases projection with absent | ⟨position, entry, found, there⟩
  · obtain ⟨_, entries, index⟩ := insert_of_absent absent key value
    rw [get?, lookup?_eq, set, entries, index, Index.position?_insert_same, Option.bind_some]
    simp
  · obtain ⟨_, entries, index⟩ := insert_of_found found there key value
    have within := dict.numbered.inside found
    rw [get?, lookup?_eq, set, entries, index, found, Option.bind_some]
    simp [within]

/-- Putting a value under a key leaves what is found under the others. -/
theorem get?_set_other {projection other : Key} (key value : Ref) (distinct : other ≠ projection) :
    (dict.set projection key value).get? other = dict.get? other := by
  rw [get?, get?, lookup?_eq, lookup?_eq, set]
  rcases dict.position?_cases projection with absent | ⟨position, entry, found, there⟩
  · obtain ⟨_, entries, index⟩ := insert_of_absent absent key value
    rw [entries, index, Index.position?_insert_other _ _ distinct]
    cases reading : dict.index.position? other with
    | none => rfl
    | some place =>
      have within := dict.numbered.inside reading
      rw [Option.bind_some, Option.bind_some, List.getElem?_append_left within]
  · obtain ⟨_, entries, index⟩ := insert_of_found found there key value
    rw [entries, index]
    cases reading : dict.index.position? other with
    | none => rfl
    | some place =>
      have apart : position ≠ place := by
        rintro rfl
        exact distinct (dict.numbered.apart found reading)
      simp [apart]

/-- Nothing is found under a key that was removed. -/
@[simp]
theorem get?_erase_same (projection : Key) :
    (dict.erase projection).get? projection = none := by
  rw [get?, lookup?_eq, erase]
  rcases dict.position?_cases projection with absent | ⟨position, entry, found, there⟩
  · rw [remove_of_absent absent, absent]
    rfl
  · obtain ⟨_, _, index⟩ := remove_of_found found there
    rw [index]
    simp

end Dict

end HostBridge
