import HostBridge.Proofs.Dict.Projection

/-!
# Dicts are association lists

The plain account of a dict is the list of its entries: a look-up walks the list
until it comes to an entry whose key has the wanted projection, writing changes
the value of that entry or adds one at the end, and removing takes it out.

A dict finds entries through its index instead.  As long as the index is exact,
which is to say that it maps the projection of each key to the position of its
entry and nothing else, every operation does the same to the entries as the
plain account has it, gives the same answer, and leaves the index exact.
-/

namespace HostBridge

variable {program : Program}

namespace Dict

/-! ## Operations -/

/-- What is done with a dict. -/
inductive Operation where
  | set (key value : Ref)
  | get (key : Ref)
  | getText (name : String)
  | containsText (name : String)
  | remove (key : Ref)
  | items
  | keys
  | length
  | takeAll

/-- What an operation answers. -/
inductive Answer where
  /-- A value, if there is one. -/
  | value (found : Option Ref)
  | truth (holds : Bool)
  /-- An entry that was taken out, if there was one. -/
  | entry (found : Option DictEntry)
  | entries (all : List DictEntry)
  | keys (all : List Ref)
  | length (size : Nat)
  | refused (exception : Exception)

/-- Do something with a dict. -/
def perform (heap : Heap) (dict : Dict) : Operation → Answer × Dict
  | .set key value =>
    match heap.key key with
    | .ok projection =>
      let (displaced, dict) := dict.insert projection key value
      (.value displaced, dict)
    | .error exception => (.refused exception, dict)
  | .get key =>
    match heap.key key with
    | .ok projection => (.value (dict.get? projection), dict)
    | .error exception => (.refused exception, dict)
  | .getText name => (.value (dict.get? (.text name)), dict)
  | .containsText name => (.truth (dict.contains (.text name)), dict)
  | .remove key =>
    match heap.key key with
    | .ok projection =>
      let (removed, dict) := dict.remove projection
      (.entry removed, dict)
    | .error exception => (.refused exception, dict)
  | .items => (.entries dict.entries, dict)
  | .keys => (.keys dict.keys, dict)
  | .length => (.length dict.size, dict)
  | .takeAll =>
    let (entries, dict) := dict.takeAll
    (.entries entries, dict)

end Dict

/-! ## The plain account -/

/-- Whether the key of an entry has a projection. -/
def DictEntry.at (heap : Heap) (projection : Key) (entry : DictEntry) : Bool :=
  (heap.key entry.key).toOption = some projection

namespace Association

open Dict (Operation Answer)

variable (heap : Heap) (projection : Key)

/-- Put a value under a key: in the entry that has the key, or else at the end. -/
def put (key value : Ref) : List DictEntry → Option Ref × List DictEntry
  | [] => (none, [⟨key, value⟩])
  | entry :: rest =>
    if entry.at heap projection then (some entry.value, { entry with value } :: rest)
    else
      let (displaced, rest) := put key value rest
      (displaced, entry :: rest)

/-- Take out the entry that has a key. -/
def cut : List DictEntry → Option DictEntry × List DictEntry
  | [] => (none, [])
  | entry :: rest =>
    if entry.at heap projection then (some entry, rest)
    else
      let (removed, rest) := cut rest
      (removed, entry :: rest)

/-- The value under a key. -/
def value? (entries : List DictEntry) : Option Ref :=
  (entries.find? (·.at heap projection)).map (·.value)

variable (entries : List DictEntry)

/-- Do something with a list of entries. -/
def perform : Operation → Answer × List DictEntry
  | .set key value =>
    match heap.key key with
    | .ok projection =>
      let (displaced, entries) := put heap projection key value entries
      (.value displaced, entries)
    | .error exception => (.refused exception, entries)
  | .get key =>
    match heap.key key with
    | .ok projection => (.value (value? heap projection entries), entries)
    | .error exception => (.refused exception, entries)
  | .getText name => (.value (value? heap (.text name) entries), entries)
  | .containsText name => (.truth (entries.any (·.at heap (.text name))), entries)
  | .remove key =>
    match heap.key key with
    | .ok projection =>
      let (removed, entries) := cut heap projection entries
      (.entry removed, entries)
    | .error exception => (.refused exception, entries)
  | .items => (.entries entries, entries)
  | .keys => (.keys (entries.map (·.key)), entries)
  | .length => (.length entries.length, entries)
  | .takeAll => (.entries entries, [])

variable {heap projection entries} {front : List DictEntry}

/-- Entries with other keys are passed by. -/
theorem put_append (passed : ∀ entry ∈ front, entry.at heap projection = false)
    (back : List DictEntry) (key value : Ref) :
    put heap projection key value (front ++ back) =
      ((put heap projection key value back).1, front ++ (put heap projection key value back).2) := by
  induction front with
  | nil => rfl
  | cons entry rest ih =>
    have here := passed entry (by simp)
    rw [List.cons_append, put, ih fun other member => passed other (by simp [member])]
    simp [here]

theorem cut_append (passed : ∀ entry ∈ front, entry.at heap projection = false)
    (back : List DictEntry) :
    cut heap projection (front ++ back) =
      ((cut heap projection back).1, front ++ (cut heap projection back).2) := by
  induction front with
  | nil => rfl
  | cons entry rest ih =>
    have here := passed entry (by simp)
    rw [List.cons_append, cut, ih fun other member => passed other (by simp [member])]
    simp [here]

theorem value?_append (passed : ∀ entry ∈ front, entry.at heap projection = false)
    (back : List DictEntry) :
    value? heap projection (front ++ back) = value? heap projection back := by
  have none : front.find? (·.at heap projection) = none :=
    List.find?_eq_none.mpr fun entry member => by simp [passed entry member]
  rw [value?, value?, List.find?_append, none, Option.none_or]

end Association

/-! ## Exact indices -/

namespace Dict

variable {heap : Heap} {dict : Dict} {projection : Key} {position : Nat}

/-- The index maps the projection of each key to the position of its entry, and
nothing else. -/
def Exact (heap : Heap) (dict : Dict) : Prop :=
  ∀ projection position, dict.index.position? projection = some position ↔
    ∃ entry, dict.entries[position]? = some entry ∧ heap.key entry.key = .ok projection

theorem exact_empty (heap : Heap) : empty.Exact heap := by
  intro projection position
  simp [empty]

theorem at_iff {entry : DictEntry} :
    entry.at heap projection = true ↔ heap.key entry.key = .ok projection := by
  unfold DictEntry.at
  cases heap.key entry.key <;> simp [Except.toOption]

namespace Exact

/-- A projection that the index does not have is that of no key. -/
theorem absent (exact : dict.Exact heap) (absent : dict.index.position? projection = none) :
    ∀ entry ∈ dict.entries, entry.at heap projection = false := by
  intro entry member
  obtain ⟨position, there⟩ := List.mem_iff_getElem?.mp member
  rw [Bool.eq_false_iff]
  intro keyed
  have found := (exact projection position).mpr ⟨entry, there, at_iff.mp keyed⟩
  rw [absent] at found
  cases found

/-- The entry that the index leads to is the only one with its projection. -/
theorem found (exact : dict.Exact heap) (found : dict.index.position? projection = some position) :
    ∃ front entry back, dict.entries = front ++ entry :: back ∧ front.length = position ∧
      entry.at heap projection = true ∧ ∀ other ∈ front, other.at heap projection = false := by
  obtain ⟨entry, there, keyed⟩ := (exact projection position).mp found
  obtain ⟨within, rfl⟩ := List.getElem?_eq_some_iff.mp there
  refine ⟨dict.entries.take position, dict.entries[position], dict.entries.drop (position + 1),
    by simp, by simp; omega, at_iff.mpr keyed, ?_⟩
  intro other member
  rw [Bool.eq_false_iff]
  intro keyed'
  obtain ⟨earlier, before, same⟩ := List.mem_take_iff_getElem.mp member
  have found' := (exact projection earlier).mpr
    ⟨other, by rw [List.getElem?_eq_getElem (by omega), same], at_iff.mp keyed'⟩
  rw [found, Option.some.injEq] at found'
  omega

/-- Each key has a projection. -/
theorem hashable (exact : dict.Exact heap) {entry : DictEntry}
    (there : dict.entries[position]? = some entry) :
    ∃ projection, heap.key entry.key = .ok projection := by
  obtain ⟨within, _⟩ := List.getElem?_eq_some_iff.mp there
  obtain ⟨projection, found⟩ := dict.numbered.onto within
  obtain ⟨entry', there', keyed⟩ := (exact projection position).mp found
  rw [there, Option.some.injEq] at there'
  exact ⟨projection, there' ▸ keyed⟩

/-- No two keys have one projection. -/
theorem distinct (exact : dict.Exact heap) :
    dict.entries.Pairwise fun entry other => heap.key entry.key ≠ heap.key other.key := by
  rw [List.pairwise_iff_getElem]
  intro first second within within' before same
  obtain ⟨projection, keyed⟩ := exact.hashable (List.getElem?_eq_getElem within)
  have front := (exact projection first).mpr ⟨_, List.getElem?_eq_getElem within, keyed⟩
  have back := (exact projection second).mpr
    ⟨_, List.getElem?_eq_getElem within', same.symm.trans keyed⟩
  rw [front, Option.some.injEq] at back
  omega

/-- The same keys have the same projections in another heap. -/
theorem congr {other : Heap} (exact : dict.Exact heap)
    (same : ∀ key ∈ dict.keys, other.key key = heap.key key) : dict.Exact other := by
  intro projection position
  rw [exact projection position]
  refine exists_congr fun entry => and_congr_right fun there => ?_
  rw [same entry.key (List.mem_map.mpr ⟨entry, List.mem_of_getElem? there, rfl⟩)]

/-! ### Each operation -/

theorem get? (exact : dict.Exact heap) (projection : Key) :
    dict.get? projection = Association.value? heap projection dict.entries := by
  rw [Dict.get?, lookup?_eq]
  cases reading : dict.index.position? projection with
  | none =>
    have passed := exact.absent reading
    rw [← List.append_nil dict.entries, Association.value?_append passed]
    rfl
  | some position =>
    obtain ⟨front, entry, back, split, rfl, keyed, passed⟩ := exact.found reading
    rw [split, Association.value?_append passed]
    simp [Association.value?, keyed]

theorem contains (exact : dict.Exact heap) (projection : Key) :
    dict.contains projection = dict.entries.any (·.at heap projection) := by
  rw [Dict.contains]
  cases reading : dict.index.position? projection with
  | none =>
    have passed := exact.absent reading
    exact (List.any_eq_false.mpr fun entry member => by simp [passed entry member]).symm
  | some position =>
    obtain ⟨front, entry, back, split, _, keyed, _⟩ := exact.found reading
    rw [split]
    simp [keyed]

theorem insert (exact : dict.Exact heap) {key : Ref} (hashed : heap.key key = .ok projection)
    (value : Ref) :
    (dict.insert projection key value).1 =
        (Association.put heap projection key value dict.entries).1 ∧
      (dict.insert projection key value).2.entries =
        (Association.put heap projection key value dict.entries).2 ∧
      (dict.insert projection key value).2.Exact heap := by
  cases reading : dict.index.position? projection with
  | none =>
    obtain ⟨displaced, entries, index⟩ := insert_of_absent reading key value
    have passed := exact.absent reading
    have plain := Association.put_append passed [] key value
    rw [List.append_nil] at plain
    refine ⟨by rw [displaced, plain]; rfl, by rw [entries, plain]; rfl, ?_⟩
    intro other place
    rw [entries, index]
    by_cases here : other = projection
    · subst here
      rw [Index.position?_insert_same, Option.some.injEq]
      constructor
      · rintro rfl
        exact ⟨⟨key, value⟩, by simp, hashed⟩
      · rintro ⟨entry, there, keyed⟩
        -- were it one of the entries that were there, the index would have had its key
        by_contra apart
        have old : dict.entries[place]? = some entry := by
          rw [List.getElem?_append] at there
          split at there
          · exact there
          · rw [List.getElem?_singleton] at there
            split at there
            · omega
            · cases there
        have none := passed entry (List.mem_of_getElem? old)
        rw [at_iff.mpr keyed] at none
        cases none
    · rw [Index.position?_insert_other _ _ here, exact other place]
      refine exists_congr fun entry => and_congr_left fun keyed => ?_
      rw [List.getElem?_append]
      split
      · rfl
      · rename_i beyond
        rw [List.getElem?_eq_none (Nat.le_of_not_lt beyond), List.getElem?_singleton]
        split
        · refine ⟨nofun, fun same => ?_⟩
          rw [Option.some.injEq] at same
          subst same
          rw [hashed, Except.ok.injEq] at keyed
          exact absurd keyed.symm here
        · rfl
  | some position =>
    obtain ⟨front, entry, back, split, length, keyed, passed⟩ := exact.found reading
    have there : dict.entries[position]? = some entry := by rw [split, ← length]; simp
    obtain ⟨displaced, entries, index⟩ := insert_of_found reading there key value
    have plain : Association.put heap projection key value dict.entries =
        (some entry.value, front ++ { entry with value } :: back) := by
      rw [split, Association.put_append passed, Association.put, if_pos keyed]
    refine ⟨by rw [displaced, plain], ?_, ?_⟩
    · rw [entries, plain, split, ← length]
      simp
    · intro other place
      rw [entries, index, exact other place]
      by_cases here : place = position
      · subst here
        have within := dict.numbered.inside reading
        rw [there, List.getElem?_set_self within]
        simp
      · rw [List.getElem?_set_ne (Ne.symm here)]

theorem remove (exact : dict.Exact heap) (projection : Key) :
    (dict.remove projection).1 = (Association.cut heap projection dict.entries).1 ∧
      (dict.remove projection).2.entries = (Association.cut heap projection dict.entries).2 ∧
      (dict.remove projection).2.Exact heap := by
  cases reading : dict.index.position? projection with
  | none =>
    have plain := Association.cut_append (exact.absent reading) []
    rw [List.append_nil] at plain
    rw [remove_of_absent reading, plain]
    exact ⟨rfl, by simp [Association.cut], exact⟩
  | some gap =>
    obtain ⟨front, entry, back, split, length, keyed, passed⟩ := exact.found reading
    have there : dict.entries[gap]? = some entry := by rw [split, ← length]; simp
    obtain ⟨removed, entries, index⟩ := remove_of_found reading there
    have plain : Association.cut heap projection dict.entries = (some entry, front ++ back) := by
      rw [split, Association.cut_append passed, Association.cut, if_pos keyed]
    refine ⟨by rw [removed, plain], ?_, ?_⟩
    · rw [entries, plain, split, ← length]
      simp [List.eraseIdx_append_of_length_le]
    · intro other place
      rw [entries, index, Index.position?_closeGap, List.getElem?_eraseIdx, Option.map_eq_some_iff]
      -- The entries before the gap stay where they are, those behind it move up by one.
      have moved : ∀ old, old ≠ gap → (Index.shift gap old = place ↔
          old = if place < gap then place else place + 1) := by
        intro old apart
        unfold Index.shift
        split <;> split <;> omega
      constructor
      · rintro ⟨old, found, shifted⟩
        have other' : other ≠ projection := by
          rintro rfl
          simp at found
        rw [Index.position?_remove_other _ other'] at found
        have apart : old ≠ gap := by
          rintro rfl
          exact other' (dict.numbered.apart reading found)
        obtain ⟨later, there', keyed'⟩ := (exact other old).mp found
        rw [moved old apart] at shifted
        refine ⟨later, ?_, keyed'⟩
        rw [← there', shifted]
        split <;> rfl
      · rintro ⟨later, there', keyed'⟩
        obtain ⟨old, same⟩ : ∃ old, old = if place < gap then place else place + 1 := ⟨_, rfl⟩
        have apart : old ≠ gap := by
          rw [same]
          split <;> omega
        have found := (exact other old).mpr ⟨later, by rw [← there', same]; split <;> rfl, keyed'⟩
        have other' : other ≠ projection := by
          rintro rfl
          rw [reading, Option.some.injEq] at found
          exact apart found.symm
        exact ⟨old, by rw [Index.position?_remove_other _ other', found], (moved old apart).mpr same⟩

/-- One operation gives the answer of the plain account, does the same to the entries and
keeps the index exact. -/
theorem perform (exact : dict.Exact heap) (operation : Operation) :
    (dict.perform heap operation).1 = (Association.perform heap dict.entries operation).1 ∧
      (dict.perform heap operation).2.entries =
        (Association.perform heap dict.entries operation).2 ∧
      (dict.perform heap operation).2.Exact heap := by
  cases operation with
  | set key value =>
    cases hashed : heap.key key with
    | ok projection =>
      obtain ⟨displaced, entries, kept⟩ := exact.insert hashed value
      simp only [Dict.perform, Association.perform, hashed]
      exact ⟨congrArg Answer.value displaced, entries, kept⟩
    | error exception =>
      simp only [Dict.perform, Association.perform, hashed]
      exact ⟨trivial, trivial, exact⟩
  | get key =>
    cases hashed : heap.key key with
    | ok projection =>
      simp only [Dict.perform, Association.perform, hashed]
      exact ⟨congrArg Answer.value (exact.get? projection), trivial, exact⟩
    | error exception =>
      simp only [Dict.perform, Association.perform, hashed]
      exact ⟨trivial, trivial, exact⟩
  | getText name => exact ⟨congrArg Answer.value (exact.get? _), rfl, exact⟩
  | containsText name => exact ⟨congrArg Answer.truth (exact.contains _), rfl, exact⟩
  | remove key =>
    cases hashed : heap.key key with
    | ok projection =>
      obtain ⟨removed, entries, kept⟩ := exact.remove projection
      simp only [Dict.perform, Association.perform, hashed]
      exact ⟨congrArg Answer.entry removed, entries, kept⟩
    | error exception =>
      simp only [Dict.perform, Association.perform, hashed]
      exact ⟨trivial, trivial, exact⟩
  | items | keys | length => exact ⟨rfl, rfl, exact⟩
  | takeAll => exact ⟨rfl, rfl, exact_empty heap⟩

end Exact

end Dict

end HostBridge
