import ImmutableLedger.Json.RoundTrip

/-! `json.loads`, whatever it makes of a text.

A text is a value, or it is refused with the exception that callers catch, or something else is
raised: an integer with too many digits is a `ValueError` and a deep nesting a `RecursionError`.
-/

set_option autoImplicit false

namespace ImmutableLedger.Json

open Python

inductive Loaded (F : Type) where
  | value (value : Value F)
  | decodeError
  | raises (exception : Exn)

/-- What `json.loads` yields for a text. No dictionary in its values has a key twice. -/
structure Loads (F : Type) where
  loads : Str → Loaded F
  distinct : ∀ {text : Str} {value : Value F}, loads text = .value value → value.Distinct

variable {G : Type} {dialect : Dialect G}

/-- A value that has no items and no members. -/
theorem alone {value : Value G} (parts : value.parts = [value]) (keys : value.keys = []) :
    value.Distinct := by
  rw [Value.distinct_iff, parts, List.forall_mem_singleton, keys]
  exact List.nodup_nil

theorem words_distinct : ∀ entry ∈ words dialect, ∀ value, entry.2 = some value → value.Distinct := by
  have constant (name : NonFinite) (value : Value G)
      (found : (dialect.constant name).map .float = some value) : value.Distinct := by
    obtain ⟨number, -, rfl⟩ := Option.map_eq_some_iff.mp found
    exact alone rfl rfl
  simp only [words, List.forall_mem_cons]
  refine ⟨?_, ?_, ?_, constant .nan, constant .infinity, constant .negativeInfinity,
    fun entry none => absurd none List.not_mem_nil⟩
  all_goals
    rintro value ⟨⟩
    exact alone rfl rfl

theorem scalar_distinct {text rest : Str} {found : Value G}
    (read : scalar dialect text = some (found, rest)) : found.Distinct := by
  rcases Option.or_eq_some_iff.mp read with number | ⟨-, word⟩
  · obtain ⟨⟨literal, after⟩, -, same⟩ := Option.map_eq_some_iff.mp number
    have shown : (if literal.fraction = [] ∧ literal.exponent = [] then
        ((.int literal.integer : Value G), after) else (.float (dialect.float literal), after)) =
          (found, rest) := same
    split at shown <;> cases shown <;> exact alone rfl rfl
  · obtain ⟨entry, held, same⟩ := List.exists_of_findSome?_eq_some word
    obtain ⟨-, same⟩ := Option.ite_none_right_eq_some.mp same
    obtain ⟨value, known, same⟩ := Option.map_eq_some_iff.mp same
    cases same
    exact words_distinct entry held _ known

/-- What is read with some fuel has distinct keys, and so have the items and the members read. -/
theorem fuel_distinct (fuel : Nat) :
    (∀ text found rest, value dialect fuel text = some (found, rest) → found.Distinct) ∧
    (∀ text found rest, items dialect fuel text = some (found, rest) →
      ∀ item ∈ found, item.Distinct) ∧
    ∀ text found rest, members dialect fuel text = some (found, rest) →
      ∀ member ∈ found, member.2.Distinct := by
  induction fuel with
  | zero =>
    refine ⟨?_, ?_, ?_⟩ <;> (intro text found rest read; cases read)
  | succ fuel ih =>
    obtain ⟨values, lists, objects⟩ := ih
    refine ⟨?_, ?_, ?_⟩
    · intro text found rest read
      rw [value] at read
      split at read
      · obtain ⟨⟨held, after⟩, -, same⟩ := Option.map_eq_some_iff.mp read
        cases same
        exact alone rfl rfl
      · split at read
        · cases read
          exact Value.distinct_list.mpr fun item none => absurd none List.not_mem_nil
        · obtain ⟨⟨found, after⟩, more, same⟩ := Option.map_eq_some_iff.mp read
          cases same
          exact Value.distinct_list.mpr (lists _ _ _ more)
      · split at read
        · cases read
          exact Value.distinct_dict.mpr
            ⟨List.nodup_nil, fun member none => absurd none List.not_mem_nil⟩
        · obtain ⟨⟨pairs, after⟩, more, same⟩ := Option.map_eq_some_iff.mp read
          cases same
          obtain ⟨nodup, origin⟩ := Dict.ofPairs_spec pairs
          exact Value.distinct_dict.mpr
            ⟨nodup, fun member held => objects _ _ _ more member (origin member held)⟩
      · exact scalar_distinct read
    · intro text found rest read
      simp only [items, bind, Option.bind_eq_some_iff] at read
      obtain ⟨⟨item, after⟩, first, read⟩ := read
      have head := values _ _ _ first
      split at read
      · obtain ⟨⟨others, last⟩, more, same⟩ := Option.map_eq_some_iff.mp read
        cases same
        exact List.forall_mem_cons.mpr ⟨head, lists _ _ _ more⟩
      · obtain ⟨last, -, same⟩ := Option.map_eq_some_iff.mp read
        cases same
        exact List.forall_mem_singleton.mpr head
    · intro text found rest read
      simp only [members, bind, Option.bind_eq_some_iff] at read
      obtain ⟨opened, -, ⟨key, named⟩, -, after, -, ⟨item, ended⟩, first, read⟩ := read
      have head := values _ _ _ first
      split at read
      · obtain ⟨⟨others, last⟩, more, same⟩ := Option.map_eq_some_iff.mp read
        cases same
        exact List.forall_mem_cons.mpr ⟨head, objects _ _ _ more⟩
      · obtain ⟨last, -, same⟩ := Option.map_eq_some_iff.mp read
        cases same
        exact List.forall_mem_singleton.mpr head

theorem read_distinct {text : Str} {found : Value G} (accepted : read dialect text = some found) :
    found.Distinct := by
  simp only [read, bind, Option.bind_eq_some_iff] at accepted
  obtain ⟨⟨value, rest⟩, parsed, -, -, same⟩ := accepted
  cases Option.some.inj same
  exact (fuel_distinct _).1 _ _ _ parsed

/-- The reader of a dialect as a `json.loads` that knows no limits. -/
def Dialect.loads (dialect : Dialect G) : Loads G where
  loads text :=
    match read dialect text with
    | some value => .value value
    | none => .decodeError
  distinct {text value} loaded := by
    split at loaded
    · next value accepted =>
      cases loaded
      exact read_distinct accepted
    · cases loaded

/-- No exception but that of the decoder comes from a reader without limits. -/
theorem Dialect.loads_quiet (dialect : Dialect G) (text : Str) (exception : Exn) :
    dialect.loads.loads text ≠ .raises exception := by
  simp only [Dialect.loads]
  split <;> simp

theorem Dialect.loads_canonical [Interpreter G] (dialect : Dialect G) {value : Value G}
    (distinct : value.Distinct) (floatless : value.Floatless)
    (inOrder : arranged (some Str.codes) value = value) :
    dialect.loads.loads (canonical.write value) = .value value := by
  have parsed := read_canonical dialect distinct floatless
  simp only [Dialect.loads, parsed, inOrder]

end ImmutableLedger.Json
