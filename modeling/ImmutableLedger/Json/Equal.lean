import ImmutableLedger.Json.Write

/-! Equality of JSON values.

The members of an object have no order. Two values are equal exactly when they are the same value
once the members of every object in them are brought into one order.
-/

set_option autoImplicit false

namespace ImmutableLedger.Json

open Python

variable {F : Type}

mutual

/-- Whether two values are equal as JSON values. -/
def Same : Value F → Value F → Prop
  | .none, .none => True
  | .bool value, .bool other => value = other
  | .int value, .int other => value = other
  | .float value, .float other => value = other
  | .str text, .str other => text = other
  | .list items, .list others => SameItems items others
  | .dict members, .dict others => members.length = others.length ∧ SameMembers members others
  | _, _ => False
termination_by structural value => value

def SameItems : List (Value F) → List (Value F) → Prop
  | [], [] => True
  | item :: rest, other :: others => Same item other ∧ SameItems rest others
  | _, _ => False
termination_by structural items => items

/-- Whether every member has an equal one among others. -/
def SameMembers : List (Str × Value F) → Dict (Value F) → Prop
  | [], _ => True
  | (key, value) :: rest, others =>
    (∃ other, others.lookup key = some other ∧ Same value other) ∧ SameMembers rest others
termination_by structural members => members

end

theorem sameItems_iff {items others : List (Value F)} :
    SameItems items others ↔ List.Forall₂ Same items others := by
  induction items generalizing others with
  | nil => cases others <;> simp [SameItems]
  | cons item rest ih => cases others <;> simp [SameItems, ih]

theorem sameMembers_iff {members others : Dict (Value F)} :
    SameMembers members others ↔
      ∀ member ∈ members, ∃ other, others.lookup member.1 = some other ∧ Same member.2 other := by
  induction members with
  | nil => simp [SameMembers]
  | cons member rest ih => rw [SameMembers, ih, List.forall_mem_cons]

mutual

/-- A value with the members of its objects brought into an order. -/
def arranged (order : Option (Str → List Nat)) : Value F → Value F
  | .list items => .list (arrangedItems order items)
  | .dict members => .dict (arrange order (arrangedMembers order members))
  | value => value
termination_by structural value => value

def arrangedItems (order : Option (Str → List Nat)) : List (Value F) → List (Value F)
  | [] => []
  | item :: rest => arranged order item :: arrangedItems order rest
termination_by structural items => items

def arrangedMembers (order : Option (Str → List Nat)) : List (Str × Value F) → Dict (Value F)
  | [] => []
  | (key, value) :: rest => (key, arranged order value) :: arrangedMembers order rest
termination_by structural members => members

end

section

variable (order : Option (Str → List Nat))

theorem arrangedItems_eq (items : List (Value F)) :
    arrangedItems order items = items.map (arranged order) := by
  induction items with
  | nil => rfl
  | cons item rest ih => rw [arrangedItems, ih, List.map_cons]

theorem arrangedMembers_eq (members : Dict (Value F)) :
    arrangedMembers order members = members.map fun member => (member.1, arranged order member.2) := by
  induction members with
  | nil => rfl
  | cons member rest ih => rw [arrangedMembers, ih, List.map_cons]

theorem arranged_list (items : List (Value F)) :
    arranged order (.list items) = .list (items.map (arranged order)) := by
  rw [arranged, arrangedItems_eq]

theorem arranged_dict (members : Dict (Value F)) :
    arranged order (.dict members) =
      .dict ((arrange order members).map fun member => (member.1, arranged order member.2)) := by
  rw [arranged, arrangedMembers_eq, arrange_map]

end

/-- Bringing members into an order changes no float. -/
theorem float_arranged (order : Option (Str → List Nat)) {value : Value F} {number : F} :
    .float number ∈ (arranged order value).parts ↔ .float number ∈ value.parts := by
  induction value with
  | list items ih =>
    rw [arranged_list, Value.mem_parts_list, Value.mem_parts_list]
    simp only [reduceCtorEq, false_or, List.mem_map, exists_exists_and_eq_and]
    exact exists_congr fun item => and_congr_right fun held => ih item held
  | dict members ih =>
    rw [arranged_dict, Value.mem_parts_dict, Value.mem_parts_dict]
    simp only [reduceCtorEq, false_or, List.mem_map, exists_exists_and_eq_and,
      (arrange_perm order members).mem_iff]
    exact exists_congr fun member => and_congr_right fun held => ih member held
  | _ => exact Iff.rfl

theorem arranged_floatless (order : Option (Str → List Nat)) {value : Value F}
    (floatless : value.Floatless) : (arranged order value).Floatless :=
  fun number found => floatless number ((float_arranged order).mp found)

theorem arrange_pairwise {α : Type} (key : Str → List Nat) (members : Dict α) :
    (arrange (some key) members).Pairwise fun first second => key first.1 ≤ key second.1 :=
  letI : Std.Total fun first second : Str × α => key first.1 ≤ key second.1 :=
    ⟨fun first second => le_total (key first.1) (key second.1)⟩
  letI : IsTrans (Str × α) fun first second => key first.1 ≤ key second.1 :=
    ⟨fun _ _ _ => le_trans⟩
  List.pairwise_insertionSort _ members

/-- Members with different keys have one order. -/
theorem arrange_congr {α : Type} {key : Str → List Nat} (injective : Function.Injective key)
    {first second : Dict α} (distinct : (Dict.keys first).Nodup) (same : first.Perm second) :
    arrange (some key) first = arrange (some key) second := by
  have perm : (arrange (some key) first).Perm (arrange (some key) second) :=
    (arrange_perm _ first).trans (same.trans (arrange_perm _ second).symm)
  apply perm.eq_of_pairwise _ (arrange_pairwise key first) (arrange_pairwise key second)
  intro one other found also before after
  have sameKey : one.1 = other.1 := injective (le_antisymm before after)
  have foundOne : one ∈ first := (arrange_perm _ first).mem_iff.mp found
  have foundOther : other ∈ first := same.mem_iff.mpr ((arrange_perm _ second).mem_iff.mp also)
  exact List.inj_on_of_nodup_map distinct foundOne foundOther sameKey

theorem arrange_arrange {α : Type} (order : Option (Str → List Nat)) (members : Dict α) :
    arrange order (arrange order members) = arrange order members := by
  cases order with
  | none => rfl
  | some key => exact (arrange_pairwise key members).insertionSort_eq

/-- A value is written like one whose members are in order already. -/
theorem Layout.write_arranged (layout : Layout F) (value : Value F) :
    layout.write (arranged layout.order value) = layout.write value := by
  induction value with
  | list items ih =>
    have same : (items.map (arranged layout.order)).map layout.write = items.map layout.write := by
      rw [List.map_map]
      exact List.map_congr_left ih
    rw [arranged_list, write, write, writeItems_eq, writeItems_eq, same]
  | dict members ih =>
    have same : layout.writeMembers
        ((arrange layout.order members).map fun member => (member.1, arranged layout.order member.2)) =
        arrange layout.order (layout.writeMembers members) := by
      rw [writeMembers_eq, writeMembers_eq, arrange_map, List.map_map]
      apply List.map_congr_left
      intro member found
      exact congrArg (Prod.mk member.1) (ih member ((arrange_perm _ members).mem_iff.mp found))
    rw [arranged_dict, write, write, same, arrange_arrange]
  | _ => rfl

theorem same_items {f : Value F → Value F} {items others : List (Value F)}
    (each : ∀ item ∈ items, ∀ other ∈ others, Same item other ↔ f item = f other) :
    List.Forall₂ Same items others ↔ items.map f = others.map f := by
  induction items generalizing others with
  | nil => cases others <;> simp
  | cons item rest ih =>
    cases others with
    | nil => simp
    | cons other others =>
      have head := each item List.mem_cons_self other List.mem_cons_self
      have tail := ih fun item found other also =>
        each item (List.mem_cons_of_mem _ found) other (List.mem_cons_of_mem _ also)
      rw [List.forall₂_cons, List.map_cons, List.map_cons, List.cons.injEq, head, tail]

theorem same_members {f : Value F → Value F} {members others : Dict (Value F)}
    (distinct : (Dict.keys members).Nodup) (also : (Dict.keys others).Nodup)
    (each : ∀ member ∈ members, ∀ other ∈ others, Same member.2 other.2 ↔ f member.2 = f other.2) :
    (members.length = others.length ∧
        ∀ member ∈ members, ∃ other, others.lookup member.1 = some other ∧ Same member.2 other) ↔
      (members.map fun member => (member.1, f member.2)).Perm
        (others.map fun member => (member.1, f member.2)) := by
  constructor
  · rintro ⟨length, all⟩
    have nodup : (members.map fun member => (member.1, f member.2)).Nodup := by
      apply List.Nodup.of_map Prod.fst
      rw [List.map_map]
      exact distinct
    -- Members with different keys that all occur among as many others are all of them.
    apply (List.subperm_of_subset nodup _).perm_of_length_le (by simp [length])
    intro pair listed
    obtain ⟨member, found, rfl⟩ := List.mem_map.mp listed
    obtain ⟨other, held, same⟩ := all member found
    have place := (Dict.lookup_eq_some also).mp held
    exact List.mem_map.mpr ⟨_, place, Prod.ext rfl ((each member found _ place).mp same).symm⟩
  · intro perm
    refine ⟨by simpa using perm.length_eq, fun member found => ?_⟩
    have place : (member.1, f member.2) ∈ others.map fun member => (member.1, f member.2) :=
      perm.mem_iff.mp (List.mem_map_of_mem (f := fun member => (member.1, f member.2)) found)
    obtain ⟨other, place, same⟩ := List.mem_map.mp place
    obtain ⟨key, values⟩ := Prod.mk.inj same
    refine ⟨other.2, (Dict.lookup_eq_some also).mpr (key ▸ place), ?_⟩
    exact (each member found other place).mpr values.symm

/-- Equality of JSON values is equality of the values in order. -/
theorem same_iff_arranged {key : Str → List Nat} (injective : Function.Injective key)
    {value other : Value F} (distinct : value.Distinct) (also : other.Distinct) :
    Same value other ↔ arranged (some key) value = arranged (some key) other := by
  induction value generalizing other with
  | list items ih =>
    cases other with
    | list others =>
      rw [Same, sameItems_iff, arranged_list, arranged_list, Value.list.injEq]
      exact same_items fun item found other held =>
        ih item found (distinct.item found) (also.item held)
    | _ => simp [Same, arranged]
  | dict members ih =>
    cases other with
    | dict others =>
      have perm := same_members distinct.keys also.keys fun member found other held =>
        ih member found (distinct.member found) (also.member held)
      rw [Same, sameMembers_iff, perm, arranged, arranged, arrangedMembers_eq, arrangedMembers_eq]
      constructor
      · intro same
        apply congrArg Value.dict
        apply arrange_congr injective _ same
        rw [Dict.keys, List.map_map]
        exact distinct.keys
      · intro same
        have first := arrange_perm (some key) (members.map fun member =>
          (member.1, arranged (some key) member.2))
        have second := arrange_perm (some key) (others.map fun member =>
          (member.1, arranged (some key) member.2))
        exact first.symm.trans ((Value.dict.inj same) ▸ second)
    | _ => simp [Same, arranged]
  | _ => cases other <;> simp [Same, arranged]

end ImmutableLedger.Json
