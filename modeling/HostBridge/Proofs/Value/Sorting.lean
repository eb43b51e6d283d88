import HostBridge.Proofs.Value.Likeness

/-!
# Sorted entries

The order of host values is a strict order: two values compare the other way round if they are
swapped, and what comes after a later value comes after an earlier one.  So the entries of a map
stay in ascending order of their keys when an entry is put among them, and a map is determined by
what it has under each key.
-/

namespace HostBridge

/-! ## Comparisons that follow from others -/

/-- The third comparison is what the first two, one after the other, make it. -/
structure Ordering.Chains (first second both : Ordering) : Prop where
  left : first = .eq → both = second
  right : second = .eq → both = first
  after : first = .gt → second = .gt → both = .gt

namespace Ordering.Chains

theorem of_compare {α : Type} [Ord α] [Std.TransOrd α] (left middle right : α) :
    Chains (compare left middle) (compare middle right) (compare left right) where
  left same := Std.TransCmp.congr_left same
  right same := (Std.TransCmp.congr_right same).symm
  after := Std.TransCmp.gt_trans

theorem andThen {first second both first' second' both' : Ordering}
    (chains : Chains first second both) (chains' : Chains first' second' both') :
    Chains (first.then first') (second.then second') (both.then both') := by
  obtain ⟨left, right, after⟩ := chains
  obtain ⟨left', right', after'⟩ := chains'
  constructor <;> cases first <;> cases second <;> simp_all [Ordering.then]

end Ordering.Chains

namespace HostValue

/-! ## A strict order -/

theorem swap_compareBytes : ∀ left right : List UInt8,
    (compareBytes left right).swap = compareBytes right left
  | [], [] | [], _ :: _ | _ :: _, [] => rfl
  | left :: lefts, right :: rights => by
    rw [compareBytes, compareBytes, Ordering.swap_then, Nat.compare_swap, swap_compareBytes lefts]

theorem chains_compareBytes : ∀ left middle right : List UInt8,
    Ordering.Chains (compareBytes left middle) (compareBytes middle right) (compareBytes left right)
  | [], [], right => ⟨fun _ => rfl, fun same => same, fun _ later => later⟩
  | [], _ :: _, [] | _ :: _, [], [] => by constructor <;> simp [compareBytes]
  | [], _ :: _, _ :: _ | _ :: _, [], _ :: _ | _ :: _, _ :: _, [] => by
    constructor <;> simp [compareBytes]
  | left :: lefts, middle :: middles, right :: rights =>
    (Ordering.Chains.of_compare left.toNat middle.toNat right.toNat).andThen
      (chains_compareBytes lefts middles rights)

theorem swap_compareDicts : ∀ left right : Option Ref,
    (compareDicts left right).swap = compareDicts right left
  | none, none | none, some _ | some _, none => rfl
  | some _, some _ => Nat.compare_swap _ _

theorem chains_compareDicts : ∀ left middle right : Option Ref,
    Ordering.Chains (compareDicts left middle) (compareDicts middle right) (compareDicts left right)
  | some left, some middle, some right =>
    Ordering.Chains.of_compare left.place middle.place right.place
  | none, none, none | none, none, some _ | none, some _, none | none, some _, some _
  | some _, none, none | some _, none, some _ | some _, some _, none => by
    constructor <;> simp [compareDicts]

/-- Values of different kinds are ordered as their kinds are. -/
theorem order_of_rank_ne {left right : HostValue} (different : left.rank ≠ right.rank) :
    left.order right = compare left.rank right.rank := by
  cases left <;> cases right <;> first | rfl | exact absurd rfl different

/-- Swapping is a matter of values of one kind. -/
theorem swap_of_alike {left right : HostValue}
    (alike : left.rank = right.rank → (left.order right).swap = right.order left) :
    (left.order right).swap = right.order left := by
  by_cases same : left.rank = right.rank
  · exact alike same
  · rw [order_of_rank_ne same, order_of_rank_ne (Ne.symm same), Nat.compare_swap]

/-- Where not all three values are of one kind, their kinds decide. -/
theorem chains_of_alike {left middle right : HostValue}
    (alike : left.rank = middle.rank → middle.rank = right.rank →
      Ordering.Chains (left.order middle) (middle.order right) (left.order right)) :
    Ordering.Chains (left.order middle) (middle.order right) (left.order right) := by
  have ranks := Ordering.Chains.of_compare left.rank middle.rank right.rank
  have never : ∀ {kind kind' : Nat}, kind ≠ kind' → compare kind kind' ≠ .eq :=
    fun apart same => apart (Nat.compare_eq_eq.mp same)
  by_cases first : left.rank = middle.rank <;> by_cases second : middle.rank = right.rank
  · exact alike first second
  · have both : left.rank ≠ right.rank := first ▸ second
    rw [order_of_rank_ne second, order_of_rank_ne both, first]
    exact ⟨fun _ => rfl, fun same => absurd same (never second), fun _ later => later⟩
  · have both : left.rank ≠ right.rank := second ▸ first
    rw [order_of_rank_ne first, order_of_rank_ne both, ← second]
    exact ⟨fun same => absurd same (never first), fun _ => rfl, fun after _ => after⟩
  · rw [order_of_rank_ne first, order_of_rank_ne second]
    refine ⟨fun same => absurd same (never first), fun same => absurd same (never second),
      fun after later => ?_⟩
    have above := ranks.after after later
    rw [order_of_rank_ne ?_, above]
    intro same
    rw [Nat.compare_eq_eq.mpr same] at above
    cases above

mutual

/-- Swapped values compare the other way round. -/
theorem swap_order : ∀ left right : HostValue, (left.order right).swap = right.order left
  | .seq lefts, right | .struct lefts, right | .tuple lefts, right => swap_of_alike fun same => by
    cases right <;> cases same
    exact swap_orderAll lefts _
  | .map lefts, right => swap_of_alike fun same => by
    cases right <;> cases same
    exact swap_orderEntries lefts _
  | .boxed left, right | .present left, right => swap_of_alike fun same => by
    cases right <;> cases same
    exact swap_order left _
  | .bytes left, right => swap_of_alike fun same => by
    cases right <;> cases same
    exact swap_compareBytes left _
  | .keywords left, right => swap_of_alike fun same => by
    cases right <;> cases same
    exact swap_compareDicts left _
  | .text left, right => swap_of_alike fun same => by
    cases right <;> cases same
    exact (Std.OrientedOrd.eq_swap (α := String)).symm
  | .int left, right => swap_of_alike fun same => by
    cases right <;> cases same
    exact (Std.OrientedOrd.eq_swap (α := Int)).symm
  | .bool left, right | .single left, right | .double left, right | .object left, right
  | .sealed left, right => swap_of_alike fun same => by
    cases right <;> cases same
    exact Nat.compare_swap _ _
  | .complexSingle _ _, right | .complexDouble _ _, right => swap_of_alike fun same => by
    cases right <;> cases same
    rw [order, order, Ordering.swap_then, Nat.compare_swap, Nat.compare_swap]
  | .unit, right | .absent, right => swap_of_alike fun same => by
    cases right <;> cases same
    rfl

theorem swap_orderAll : ∀ lefts rights : List HostValue,
    (orderAll lefts rights).swap = orderAll rights lefts
  | [], [] | [], _ :: _ | _ :: _, [] => rfl
  | left :: lefts, right :: rights => by
    rw [orderAll, orderAll, Ordering.swap_then, swap_order left, swap_orderAll lefts]

theorem swap_orderEntries : ∀ lefts rights : List (HostValue × HostValue),
    (orderEntries lefts rights).swap = orderEntries rights lefts
  | [], [] | [], _ :: _ | _ :: _, [] => rfl
  | (key, value) :: lefts, (_, _) :: rights => by
    rw [orderEntries, orderEntries, Ordering.swap_then, Ordering.swap_then, swap_order key,
      swap_order value, swap_orderEntries lefts]

end

mutual

/-- What comes after a later value comes after an earlier one, and equal values compare alike. -/
theorem chains_order : ∀ left middle right : HostValue,
    Ordering.Chains (left.order middle) (middle.order right) (left.order right)
  | .seq lefts, middle, right | .struct lefts, middle, right
  | .tuple lefts, middle, right => chains_of_alike fun first second => by
    cases middle <;> cases first
    cases right <;> cases second
    exact chains_orderAll lefts _ _
  | .map lefts, middle, right => chains_of_alike fun first second => by
    cases middle <;> cases first
    cases right <;> cases second
    exact chains_orderEntries lefts _ _
  | .boxed left, middle, right
  | .present left, middle, right => chains_of_alike fun first second => by
    cases middle <;> cases first
    cases right <;> cases second
    exact chains_order left _ _
  | .bytes left, middle, right => chains_of_alike fun first second => by
    cases middle <;> cases first
    cases right <;> cases second
    exact chains_compareBytes left _ _
  | .keywords left, middle, right => chains_of_alike fun first second => by
    cases middle <;> cases first
    cases right <;> cases second
    exact chains_compareDicts left _ _
  | .text left, middle, right => chains_of_alike fun first second => by
    cases middle <;> cases first
    cases right <;> cases second
    exact Ordering.Chains.of_compare left _ _
  | .int left, middle, right => chains_of_alike fun first second => by
    cases middle <;> cases first
    cases right <;> cases second
    exact Ordering.Chains.of_compare left _ _
  | .bool _, middle, right | .single _, middle, right | .double _, middle, right
  | .object _, middle, right | .sealed _, middle, right => chains_of_alike fun first second => by
    cases middle <;> cases first
    cases right <;> cases second
    exact Ordering.Chains.of_compare (α := Nat) _ _ _
  | .complexSingle _ _, middle, right
  | .complexDouble _ _, middle, right => chains_of_alike fun first second => by
    cases middle <;> cases first
    cases right <;> cases second
    exact (Ordering.Chains.of_compare (α := Nat) _ _ _).andThen (.of_compare (α := Nat) _ _ _)
  | .unit, middle, right | .absent, middle, right => chains_of_alike fun first second => by
    cases middle <;> cases first
    cases right <;> cases second
    exact Ordering.Chains.of_compare (α := Nat) 0 0 0

theorem chains_orderAll : ∀ lefts middles rights : List HostValue,
    Ordering.Chains (orderAll lefts middles) (orderAll middles rights) (orderAll lefts rights)
  | [], [], right => ⟨fun _ => rfl, fun same => same, fun _ later => later⟩
  | [], _ :: _, [] | _ :: _, [], [] | [], _ :: _, _ :: _ | _ :: _, [], _ :: _
  | _ :: _, _ :: _, [] => by constructor <;> simp [orderAll]
  | left :: lefts, middle :: middles, right :: rights =>
    (chains_order left middle right).andThen (chains_orderAll lefts middles rights)

theorem chains_orderEntries : ∀ lefts middles rights : List (HostValue × HostValue),
    Ordering.Chains (orderEntries lefts middles) (orderEntries middles rights)
      (orderEntries lefts rights)
  | [], [], right => ⟨fun _ => rfl, fun same => same, fun _ later => later⟩
  | [], _ :: _, [] | _ :: _, [], [] | [], _ :: _, _ :: _ | _ :: _, [], _ :: _
  | _ :: _, _ :: _, [] => by constructor <;> simp [orderEntries]
  | (key, value) :: lefts, (key', value') :: middles, (key'', value'') :: rights =>
    ((chains_order key key' key'').andThen (chains_order value value' value'')).andThen
      (chains_orderEntries lefts middles rights)

end

/-- A value that comes after another is one that the other comes before. -/
theorem order_eq_gt {left right : HostValue} : left.order right = .gt ↔ right.order left = .lt := by
  rw [← swap_order right left, Ordering.swap_eq_gt]

theorem order_trans {first second third : HostValue} (later : second.order first = .gt)
    (latest : third.order second = .gt) : third.order first = .gt :=
  (chains_order third second first).after latest later

/-- A value does not come after itself. -/
theorem ne_of_order_eq_gt {left right : HostValue} (later : left.order right = .gt) :
    left ≠ right := by
  rintro rfl
  rw [order_self] at later
  cases later

/-! ## Entries in ascending order -/

/-- An entry that is put among others takes the place of those with its key. -/
theorem mem_insertEntry_iff {key value : HostValue} {entries : List (HostValue × HostValue)}
    (ascending : Ascending (entries.map (·.1))) {entry : HostValue × HostValue} :
    entry ∈ insertEntry key value entries ↔
      entry = (key, value) ∨ entry ∈ entries ∧ entry.1 ≠ key := by
  induction entries with
  | nil => simp [insertEntry]
  | cons head rest ih =>
    obtain ⟨name, old⟩ := head
    obtain ⟨above, later⟩ := List.pairwise_cons.mp ascending
    have after : ∀ other ∈ rest, other.1.order name = .gt := fun other member =>
      above other.1 (List.mem_map_of_mem member)
    unfold insertEntry
    cases compared : key.order name with
    | lt =>
      have before : name.order key = .gt := order_eq_gt.mpr compared
      have apart : ∀ other ∈ (name, old) :: rest, other.1 ≠ key := by
        intro other member
        rcases List.mem_cons.mp member with rfl | among
        · exact ne_of_order_eq_gt before
        · exact ne_of_order_eq_gt (order_trans before (after other among))
      rw [List.mem_cons]
      exact or_congr_right ⟨fun member => ⟨member, apart entry member⟩, And.left⟩
    | eq =>
      obtain rfl := eq_of_order compared
      simp only [List.mem_cons]
      refine or_congr_right
        ⟨fun member => ⟨.inr member, ne_of_order_eq_gt (after entry member)⟩, ?_⟩
      rintro ⟨rfl | member, other⟩
      · exact absurd rfl other
      · exact member
    | gt =>
      have apart : name ≠ key := (ne_of_order_eq_gt compared).symm
      simp only [List.mem_cons, ih later]
      constructor
      · rintro (rfl | rfl | ⟨member, other⟩)
        · exact .inr ⟨.inl rfl, apart⟩
        · exact .inl rfl
        · exact .inr ⟨.inr member, other⟩
      · rintro (rfl | ⟨rfl | member, other⟩)
        · exact .inr (.inl rfl)
        · exact .inl rfl
        · exact .inr (.inr ⟨member, other⟩)

theorem ascending_insertEntry {key value : HostValue} {entries : List (HostValue × HostValue)}
    (ascending : Ascending (entries.map (·.1))) :
    Ascending ((insertEntry key value entries).map (·.1)) := by
  induction entries with
  | nil => exact List.pairwise_singleton _ _
  | cons head rest ih =>
    obtain ⟨name, old⟩ := head
    obtain ⟨above, later⟩ := List.pairwise_cons.mp ascending
    unfold insertEntry
    cases compared : key.order name with
    | lt =>
      have before : name.order key = .gt := order_eq_gt.mpr compared
      refine List.pairwise_cons.mpr ⟨fun other member => ?_, ascending⟩
      rcases List.mem_cons.mp member with rfl | among
      · exact before
      · exact order_trans before (above other among)
    | eq =>
      obtain rfl := eq_of_order compared
      exact ascending
    | gt =>
      refine List.pairwise_cons.mpr ⟨fun other member => ?_, ih later⟩
      obtain ⟨entry, among, rfl⟩ := List.mem_map.mp member
      rcases (mem_insertEntry_iff later).mp among with rfl | ⟨old, _⟩
      · exact compared
      · exact above entry.1 (List.mem_map_of_mem old)

/-- What pairs leave that are put into a map one after the other: of the pairs with one key the
last, and the keys in ascending order. -/
structure Collects (pairs entries : List (HostValue × HostValue)) : Prop where
  ascending : Ascending (entries.map (·.1))
  mem_iff : ∀ pair, pair ∈ entries ↔
    ∃ front back, pairs = front ++ pair :: back ∧ ∀ later ∈ back, later.1 ≠ pair.1

/-- Put pairs into a map one after the other. -/
def insertAll (pairs entries : List (HostValue × HostValue)) : List (HostValue × HostValue) :=
  pairs.foldl (fun entries pair => insertEntry pair.1 pair.2 entries) entries

theorem collects_insertAll (pairs : List (HostValue × HostValue)) :
    Collects pairs (insertAll pairs []) := by
  -- The last pair decides, so the list is taken apart from its end.
  induction pairs using List.reverseRecOn with
  | nil => exact ⟨List.Pairwise.nil, fun pair => by simp [insertAll]⟩
  | append_singleton pairs last ih =>
    rw [insertAll, List.foldl_append]
    refine ⟨ascending_insertEntry ih.ascending, fun pair => ?_⟩
    refine (mem_insertEntry_iff ih.ascending).trans ?_
    rw [ih.mem_iff]
    constructor
    · rintro (rfl | ⟨⟨front, back, rfl, latest⟩, other⟩)
      · exact ⟨pairs, [], rfl, fun later member => nomatch member⟩
      · refine ⟨front, back ++ [last], by simp, fun later member => ?_⟩
        rcases List.mem_append.mp member with among | new
        · exact latest later among
        · obtain rfl := List.mem_singleton.mp new
          exact other.symm
    · rintro ⟨front, back, taken, latest⟩
      rcases List.eq_nil_or_concat back with rfl | ⟨back, final, rfl⟩
      · exact .inl (List.append_inj' taken rfl |>.2 |> List.cons.inj |>.1).symm
      · rw [List.concat_eq_append] at taken latest
        rw [← List.cons_append, ← List.append_assoc] at taken
        obtain ⟨rfl, same⟩ := List.append_inj' taken rfl
        obtain rfl := (List.cons.inj same).1
        refine .inr ⟨⟨front, back, rfl, fun later member => latest later (by simp [member])⟩, ?_⟩
        exact (latest last (by simp)).symm

/-- A map is determined by the pairs that are put into it. -/
theorem Collects.unique {pairs entries entries' : List (HostValue × HostValue)}
    (collects : Collects pairs entries) (collects' : Collects pairs entries') :
    entries = entries' := by
  have irreflexive : Std.Irrefl fun earlier later : HostValue × HostValue =>
      later.1.order earlier.1 = .gt := ⟨fun entry => by simp [order_self]⟩
  have antisymmetric : Std.Antisymm fun earlier later : HostValue × HostValue =>
      later.1.order earlier.1 = .gt := by
    refine ⟨fun entry entry' before after => ?_⟩
    rw [order_eq_gt, after] at before
    cases before
  refine List.Pairwise.eq_of_mem_iff (List.pairwise_map.mp collects.ascending)
    (List.pairwise_map.mp collects'.ascending) fun pair => ?_
  rw [collects.mem_iff, collects'.mem_iff]

end HostValue

end HostBridge
