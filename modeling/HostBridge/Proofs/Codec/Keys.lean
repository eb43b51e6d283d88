import HostBridge.Proofs.Codec.Denotation

/-!
# Keys that stand for values

The keys of a map become the keys of a dict.  An object for a value of a key type
has a projection, and the projection tells which value it is: scalars are
projected to their values, tuples to the projections of their items, and a
wrapper to itself.
-/

namespace HostBridge

variable {program : Program} {heap : Heap} {registry : RegistryId} {registered : StructId → Prop}

namespace Heap

/-- Only what reads as nothing has the projection of nothing. -/
theorem body_of_keyWithin_nothing {depth : Nat} {ref : Ref}
    (projected : heap.keyWithin depth ref = .ok .nothing) : heap.body ref = .none := by
  cases depth with
  | zero => cases projected
  | succ depth =>
    unfold keyWithin at projected
    cases reading : heap.body ref with
    | none => rfl
    | float value =>
      simp only [reading, Key.ofFloat, Except.ok.injEq] at projected
      split at projected
      · split at projected <;> cases projected
      · cases projected
    | complex real imaginary =>
      simp only [reading, Key.ofComplex, Key.ofFloat, Except.ok.injEq] at projected
      split at projected
      · split at projected
        · split at projected <;> cases projected
        · cases projected
      · cases projected
    | tuple items =>
      simp only [reading] at projected
      obtain ⟨keys, _, made⟩ := Refusal.exists_of_bind_eq_ok projected
      cases made
    | _ => simp [reading] at projected

end Heap

mutual

/-- An object for a value of a key type has a projection. -/
theorem Denotes.exists_key (rooted : heap.Rooted) {type : HostType} {value : HostValue} {ref : Ref}
    {depth : Nat} : Denotes program heap registry registered type value ref →
      type.Keyed registered → ref.place < depth →
        ∃ projection, heap.keyWithin depth ref = .ok projection
  | .boxed inner, keyed, deep => inner.exists_key rooted keyed deep
  | .present _ inner, keyed, deep => inner.exists_key rooted keyed deep
  | .unit, _, deep | .absent, _, deep => by
    obtain ⟨below, rfl⟩ := Nat.exists_eq_add_of_lt deep
    exact ⟨.nothing, by simp [Heap.keyWithin, rooted.none]⟩
  | .bool value, _, deep => by
    obtain ⟨below, rfl⟩ := Nat.exists_eq_add_of_lt deep
    exact ⟨.int value.toNat, by simp [Heap.keyWithin, rooted.bool value]⟩
  | .int _ reading, _, deep | .text reading, _, deep | .bytes reading, _, deep => by
    obtain ⟨below, rfl⟩ := Nat.exists_eq_add_of_lt deep
    exact ⟨_, by rw [Heap.keyWithin, reading]⟩
  | .wrapper reading _ _, _, deep => by
    obtain ⟨below, rfl⟩ := Nat.exists_eq_add_of_lt deep
    obtain ⟨cell, _, _, present, body, _⟩ := Heap.wrapper?_eq_some.mp reading
    exact ⟨.identity ref, by rw [Heap.keyWithin, Heap.body_eq present, body]⟩
  | .fields unregistered _ _, keyed, _ => absurd keyed unregistered
  | .tuple reading each, keyed, deep => by
    obtain ⟨below, rfl⟩ := Nat.exists_eq_add_of_lt deep
    obtain ⟨keys, projected⟩ := each.exists_keys rooted keyed
      (Nat.le_add_right ref.place below)
    exact ⟨.tuple keys, by rw [Heap.keyWithin, reading]; simp only [projected]; rfl⟩

theorem DenotesAll.exists_keys (rooted : heap.Rooted) {bound depth : Nat} {types : List HostType}
    {values : List HostValue} {items : List Ref} :
    DenotesAll program heap registry registered bound types values items →
      HostType.KeyedAll registered types → bound ≤ depth →
        ∃ keys, items.mapM (heap.keyWithin depth) = .ok keys
  | .nil, _, _ => ⟨[], rfl⟩
  | .cons below first rest, keyed, deep => by
    obtain ⟨projection, head⟩ := first.exists_key rooted keyed.1 (Nat.lt_of_lt_of_le below deep)
    obtain ⟨keys, tail⟩ := rest.exists_keys rooted keyed.2 deep
    exact ⟨projection :: keys, by rw [List.mapM_cons, head, tail]; rfl⟩

end

mutual

/-- The projection of an object for a value of a key type tells the value. -/
theorem Denotes.eq_of_key (rooted : heap.Rooted) : ∀ {type : HostType} {value other : HostValue}
    {ref ref' : Ref} {depth : Nat} {projection : Key}, type.Keyed registered →
    Denotes program heap registry registered type value ref →
    Denotes program heap registry registered type other ref' →
    ref.place < depth → ref'.place < depth →
    heap.keyWithin depth ref = .ok projection → heap.keyWithin depth ref' = .ok projection →
      value = other
  | .unit, _, _, _, _, _, _, _, .unit, .unit, _, _, _, _ => rfl
  | .bool, _, _, _, _, depth + 1, _, _, .bool value, .bool other, _, _, projected, projected' => by
    rw [Heap.keyWithin, rooted.bool value] at projected
    rw [Heap.keyWithin, rooted.bool other, ← projected] at projected'
    cases value <;> cases other <;> first | rfl | cases projected'
  | .int _, _, _, _, _, depth + 1, _, _, .int _ reading, .int _ reading', _, _, projected,
      projected' => by
    rw [Heap.keyWithin, reading] at projected
    rw [Heap.keyWithin, reading', ← projected] at projected'
    cases projected'
    rfl
  | .text, _, _, _, _, depth + 1, _, _, .text reading, .text reading', _, _, projected,
      projected' => by
    rw [Heap.keyWithin, reading] at projected
    rw [Heap.keyWithin, reading', ← projected] at projected'
    cases projected'
    rfl
  | .bytes, _, _, _, _, depth + 1, _, _, .bytes reading, .bytes reading', _, _, projected,
      projected' => by
    rw [Heap.keyWithin, reading] at projected
    rw [Heap.keyWithin, reading', ← projected] at projected'
    cases projected'
    rfl
  | .struct id, _, _, _, _, depth + 1, _, keyed, denotes, denotes', _, _, projected,
      projected' => by
    cases denotes with
    | fields unregistered => exact absurd keyed unregistered
    | wrapper reading =>
      cases denotes' with
      | fields unregistered => exact absurd keyed unregistered
      | wrapper reading' =>
        obtain ⟨cell, _, _, present, body, _⟩ := Heap.wrapper?_eq_some.mp reading
        obtain ⟨cell', _, _, present', body', _⟩ := Heap.wrapper?_eq_some.mp reading'
        rw [Heap.keyWithin, Heap.body_eq present, body] at projected
        rw [Heap.keyWithin, Heap.body_eq present', body', ← projected] at projected'
        cases projected'
        rw [reading] at reading'
        cases reading'
        rfl
  | .boxed element, _, _, _, _, _, _, keyed, .boxed inner, .boxed inner', deep, deep', projected,
      projected' => by
    have keyed : element.Keyed registered := keyed
    rw [Denotes.eq_of_key rooted keyed inner inner' deep deep' projected projected']
  | .optional element, _, _, _, _, depth, _, keyed, denotes, denotes', deep, deep', projected,
      projected' => by
    have keyed : element.Keyed registered := keyed
    have nothing : 0 < depth → heap.keyWithin depth .none = .ok .nothing := fun positive => by
      obtain ⟨below, rfl⟩ := Nat.exists_eq_add_of_lt positive
      simp [Heap.keyWithin, rooted.none]
    cases denotes with
    | absent =>
      cases denotes' with
      | absent => rfl
      | present solid inner =>
        rw [nothing (Nat.zero_lt_of_lt deep)] at projected
        cases projected
        exact absurd (Heap.body_of_keyWithin_nothing projected') (inner.something rooted solid)
    | present solid inner =>
      cases denotes' with
      | absent =>
        rw [nothing (Nat.zero_lt_of_lt deep)] at projected'
        cases projected'
        exact absurd (Heap.body_of_keyWithin_nothing projected) (inner.something rooted solid)
      | present _ inner' =>
        rw [Denotes.eq_of_key rooted keyed inner inner' deep deep' projected projected']
  | .tuple types, _, _, _, _, depth + 1, _, keyed, .tuple reading each, .tuple reading' each', deep,
      deep', projected, projected' => by
    rw [Heap.keyWithin, reading] at projected
    rw [Heap.keyWithin, reading'] at projected'
    obtain ⟨keys, items, made⟩ := Refusal.exists_of_bind_eq_ok projected
    obtain ⟨keys', items', made'⟩ := Refusal.exists_of_bind_eq_ok projected'
    cases made
    cases made'
    rw [DenotesAll.eq_of_keys rooted keyed each each' (Nat.le_of_lt_succ deep)
      (Nat.le_of_lt_succ deep') items items']

theorem DenotesAll.eq_of_keys (rooted : heap.Rooted) : ∀ {types : List HostType}
    {values others : List HostValue} {items items' : List Ref} {bound bound' depth : Nat}
    {keys : List Key}, HostType.KeyedAll registered types →
    DenotesAll program heap registry registered bound types values items →
    DenotesAll program heap registry registered bound' types others items' →
    bound ≤ depth → bound' ≤ depth →
    items.mapM (heap.keyWithin depth) = .ok keys → items'.mapM (heap.keyWithin depth) = .ok keys →
      values = others
  | [], _, _, _, _, _, _, _, _, _, .nil, .nil, _, _, _, _ => rfl
  | type :: types, _, _, _, _, _, _, _, _, keyed, .cons below first rest, .cons below' first' rest',
      deep, deep', projected, projected' => by
    rw [List.mapM_cons] at projected projected'
    obtain ⟨key, head, later⟩ := Refusal.exists_of_bind_eq_ok projected
    obtain ⟨keys, tail, made⟩ := Refusal.exists_of_bind_eq_ok later
    obtain ⟨key', head', later'⟩ := Refusal.exists_of_bind_eq_ok projected'
    obtain ⟨keys', tail', made'⟩ := Refusal.exists_of_bind_eq_ok later'
    cases made
    cases made'
    rw [Denotes.eq_of_key rooted keyed.1 first first' (Nat.lt_of_lt_of_le below deep)
      (Nat.lt_of_lt_of_le below' deep') head head',
      DenotesAll.eq_of_keys rooted keyed.2 rest rest' deep deep' tail tail']

end

end HostBridge
