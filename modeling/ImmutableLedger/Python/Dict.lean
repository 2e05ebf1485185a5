import ImmutableLedger.Python.Text
import Mathlib.Data.List.Nodup
import Mathlib.Data.List.Perm.Basic

/-! Dictionaries that keep the order in which their keys came. -/

set_option autoImplicit false

namespace ImmutableLedger.Python

abbrev Dict (α : Type) := List (Str × α)

namespace Dict

variable {α β : Type}

def keys (members : Dict α) : List Str := members.map (·.1)

/-- `members[key] = value` -/
def assign (key : Str) (value : α) : Dict α → Dict α
  | [] => [(key, value)]
  | member :: rest =>
    if member.1 = key then (key, value) :: rest else member :: assign key value rest

/-- `members.pop(key, None)` -/
def pop (key : Str) (members : Dict α) : Dict α := members.filter fun member => member.1 ≠ key

/-- `dict(pairs)`: of two pairs with one key the later one counts. -/
def ofPairs (pairs : List (Str × α)) : Dict α :=
  pairs.foldl (fun members pair => assign pair.1 pair.2 members) []

theorem assign_absent {key : Str} {members : Dict α} (absent : key ∉ keys members) (value : α) :
    assign key value members = members ++ [(key, value)] := by
  induction members with
  | nil => rfl
  | cons member rest ih =>
    have other : member.1 ≠ key := fun same => absent (same ▸ List.mem_cons_self)
    have fresh : key ∉ keys rest := fun found => absent (List.mem_cons_of_mem _ found)
    rw [assign, if_neg other, ih fresh, List.cons_append]

theorem foldl_assign (pairs : List (Str × α)) (front : Dict α) (distinct : (keys (front ++ pairs)).Nodup) :
    pairs.foldl (fun members pair => assign pair.1 pair.2 members) front = front ++ pairs := by
  induction pairs generalizing front with
  | nil => exact (List.append_nil front).symm
  | cons pair rest ih =>
    have absent : pair.1 ∉ keys front := by
      intro found
      rw [keys, List.map_append, List.nodup_append] at distinct
      exact distinct.2.2 _ found _ List.mem_cons_self rfl
    rw [List.foldl_cons, assign_absent absent, ih _ (by simpa using distinct),
      List.append_assoc, List.singleton_append]

theorem ofPairs_distinct {pairs : List (Str × α)} (distinct : (keys pairs).Nodup) :
    ofPairs pairs = pairs :=
  foldl_assign pairs [] distinct

theorem mem_assign {key : Str} {value : α} {members : Dict α} {member : Str × α}
    (found : member ∈ assign key value members) : member = (key, value) ∨ member ∈ members := by
  induction members with
  | nil => exact .inl (List.mem_singleton.mp found)
  | cons first rest ih =>
    rw [assign] at found
    split at found
    · exact (List.mem_cons.mp found).imp_right (List.mem_cons_of_mem _)
    · rcases List.mem_cons.mp found with same | later
      · exact .inr (same ▸ List.mem_cons_self)
      · exact (ih later).imp_right (List.mem_cons_of_mem _)

theorem keys_assign_nodup {members : Dict α} (distinct : (keys members).Nodup) (key : Str)
    (value : α) : (keys (assign key value members)).Nodup := by
  induction members with
  | nil => exact List.nodup_singleton key
  | cons first rest ih =>
    obtain ⟨fresh, others⟩ : first.1 ∉ keys rest ∧ (keys rest).Nodup := List.nodup_cons.mp distinct
    rw [assign]
    split
    · next same => exact List.nodup_cons.mpr ⟨same ▸ fresh, others⟩
    · next other =>
      apply List.nodup_cons.mpr
      refine ⟨fun found => ?_, ih others⟩
      obtain ⟨member, held, name⟩ := List.mem_map.mp found
      rcases mem_assign held with same | earlier
      · exact other (name.symm.trans (congrArg Prod.fst same))
      · have key : member.1 ∈ keys rest := List.mem_map_of_mem earlier
        exact fresh ((show member.1 = first.1 from name) ▸ key)

/-- Every value of a dictionary came with one of the pairs. -/
theorem ofPairs_spec (pairs : List (Str × α)) :
    (keys (ofPairs pairs)).Nodup ∧ ∀ member ∈ ofPairs pairs, member ∈ pairs := by
  have each (more : List (Str × α)) (front : Dict α) (distinct : (keys front).Nodup) :
      (keys (more.foldl (fun members pair => assign pair.1 pair.2 members) front)).Nodup ∧
        ∀ member ∈ more.foldl (fun members pair => assign pair.1 pair.2 members) front,
          member ∈ front ∨ member ∈ more := by
    induction more generalizing front with
    | nil => exact ⟨distinct, fun member found => .inl found⟩
    | cons pair rest ih =>
      obtain ⟨nodup, origin⟩ := ih _ (keys_assign_nodup distinct pair.1 pair.2)
      refine ⟨nodup, fun member found => ?_⟩
      rcases origin member found with held | later
      · rcases mem_assign held with same | earlier
        · exact .inr (same ▸ List.mem_cons_self)
        · exact .inl earlier
      · exact .inr (List.mem_cons_of_mem _ later)
  obtain ⟨nodup, origin⟩ := each pairs [] List.nodup_nil
  exact ⟨nodup, fun member found => (origin member found).resolve_left List.not_mem_nil⟩

/-- An assignment to a key that is there changes its member and no other. -/
theorem assign_present {key : Str} {members : Dict α} (distinct : (keys members).Nodup)
    (present : key ∈ keys members) (value : α) :
    assign key value members =
      members.map fun member => if member.1 = key then (member.1, value) else member := by
  induction members with
  | nil => exact absurd present List.not_mem_nil
  | cons member rest ih =>
    have parts : member.1 ∉ keys rest ∧ (keys rest).Nodup := List.nodup_cons.mp distinct
    rw [assign, List.map_cons]
    by_cases same : member.1 = key
    · have others : rest.map (fun member => if member.1 = key then (member.1, value) else member) =
          rest := by
        have fixed : ∀ other ∈ rest,
            (if other.1 = key then (other.1, value) else other) = id other := by
          intro other found
          apply if_neg
          intro also
          exact parts.1 (same.trans also.symm ▸ List.mem_map_of_mem found)
        exact (List.map_congr_left fixed).trans (List.map_id rest)
      rw [if_pos same, if_pos same, others, same]
    · have other : key ∈ keys rest := (List.mem_cons.mp present).resolve_left (Ne.symm same)
      rw [if_neg same, if_neg same, ih parts.2 other]

theorem lookup_eq_some {members : Dict α} (distinct : (keys members).Nodup) {key : Str} {value : α} :
    members.lookup key = some value ↔ (key, value) ∈ members := by
  induction members with
  | nil => simp
  | cons member rest ih =>
    obtain ⟨name, held⟩ := member
    have parts : name ∉ keys rest ∧ (keys rest).Nodup := List.nodup_cons.mp distinct
    by_cases same : key = name
    · subst same
      have absent : (key, value) ∉ rest := fun found =>
        parts.1 (List.mem_map_of_mem (f := (·.1)) found)
      simp [absent, eq_comm]
    · rw [List.lookup_cons, beq_eq_false_iff_ne.mpr same]
      simp [same, ih parts.2]

theorem lookup_member {members : Dict α} (distinct : (keys members).Nodup) {member : Str × α}
    (found : member ∈ members) : members.lookup member.1 = some member.2 :=
  (lookup_eq_some distinct).mpr found

theorem lookup_eq_none {members : Dict α} {key : Str} :
    members.lookup key = none ↔ key ∉ keys members := by
  rw [List.lookup_eq_none_iff, keys, List.mem_map]
  constructor
  · rintro absent ⟨member, found, rfl⟩
    exact bne_iff_ne.mp (absent member found) rfl
  · intro absent member found
    exact bne_iff_ne.mpr fun same => absent ⟨member, found, same.symm⟩

theorem lookup_perm {first second : Dict α} (distinct : (keys first).Nodup)
    (same : first.Perm second) (key : Str) : first.lookup key = second.lookup key := by
  have other : (keys second).Nodup := (same.map _).nodup_iff.mp distinct
  apply Option.ext
  intro value
  rw [lookup_eq_some distinct, lookup_eq_some other, same.mem_iff]

theorem lookup_map (f : α → β) (members : Dict α) (key : Str) :
    (members.map fun member => (member.1, f member.2)).lookup key = (members.lookup key).map f := by
  induction members with
  | nil => rfl
  | cons member rest ih =>
    rw [List.map_cons, List.lookup_cons, List.lookup_cons, ih]
    cases key == member.1 <;> rfl

/-- The members by a function of their values that can fail. -/
def convert (f : α → Option β) (members : Dict α) : Option (Dict β) :=
  List.mapM (fun member => (f member.2).map fun value => (member.1, value)) members

theorem convert_cons (f : α → Option β) (member : Str × α) (rest : Dict α) :
    convert f (member :: rest) =
      (f member.2).bind fun value => (convert f rest).map ((member.1, value) :: ·) := by
  have tail : List.mapM (fun member => (f member.2).map fun value => (member.1, value)) rest =
      convert f rest := rfl
  rw [convert, List.mapM_cons, tail]
  cases f member.2 with
  | none => rfl
  | some value => cases convert f rest <;> rfl

theorem exists_convert {f : α → Option β} {members : Dict α}
    (each : ∀ member ∈ members, ∃ value, f member.2 = some value) :
    ∃ found, convert f members = some found := by
  induction members with
  | nil => exact ⟨[], rfl⟩
  | cons member rest ih =>
    obtain ⟨⟨value, head⟩, tail⟩ := List.forall_mem_cons.mp each
    obtain ⟨more, rests⟩ := ih tail
    exact ⟨(member.1, value) :: more, by rw [convert_cons, head, rests]; rfl⟩

theorem convert_same {f g : α → Option β} {members : Dict α} {found : Dict β}
    (first : convert f members = some found) (second : convert g members = some found) :
    ∀ member ∈ members, ∃ value, f member.2 = some value ∧ g member.2 = some value := by
  induction members generalizing found with
  | nil => exact fun _ none => absurd none List.not_mem_nil
  | cons member rest ih =>
    rw [convert_cons] at first second
    obtain ⟨value, head, first⟩ := Option.bind_eq_some_iff.mp first
    obtain ⟨more, tail, rfl⟩ := Option.map_eq_some_iff.mp first
    obtain ⟨other, also, second⟩ := Option.bind_eq_some_iff.mp second
    obtain ⟨others, tails, same⟩ := Option.map_eq_some_iff.mp second
    obtain ⟨pairs, rfl⟩ := List.cons.inj same
    have values : other = value := (Prod.mk.inj pairs).2
    exact List.forall_mem_cons.mpr ⟨⟨value, head, values ▸ also⟩, ih tail tails⟩

theorem convert_map {γ : Type} (f : β → Option γ) (g : α → β) (members : Dict α) :
    convert f (members.map fun member => (member.1, g member.2)) =
      convert (fun value => f (g value)) members := by
  induction members with
  | nil => rfl
  | cons member rest ih => rw [List.map_cons, convert_cons, convert_cons, ih]

theorem keys_convert {f : α → Option β} {members : Dict α} {found : Dict β}
    (converted : convert f members = some found) : keys found = keys members := by
  induction members generalizing found with
  | nil => cases Option.some.inj converted; rfl
  | cons member rest ih =>
    rw [convert_cons] at converted
    obtain ⟨value, -, converted⟩ := Option.bind_eq_some_iff.mp converted
    obtain ⟨more, tail, rfl⟩ := Option.map_eq_some_iff.mp converted
    exact congrArg (member.1 :: ·) (ih tail)

end Dict

end ImmutableLedger.Python
