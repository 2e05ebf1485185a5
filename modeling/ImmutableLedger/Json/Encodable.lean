import ImmutableLedger.Json.Write

/-! Which values have bytes.

A text with a surrogate in it has no UTF-8 encoding, so what is written without escaping it can
be encoded exactly when no string and no key has one.
-/

set_option autoImplicit false

namespace ImmutableLedger

namespace Python

namespace Str

theorem hasSurrogate_append (first second : Str) :
    hasSurrogate (first ++ second) = (hasSurrogate first || hasSurrogate second) :=
  List.any_append

theorem hasSurrogate_map_char (symbols : List Char) : hasSurrogate (symbols.map .char) = false := by
  induction symbols with
  | nil => rfl
  | cons symbol rest ih => exact ih

theorem hasSurrogate_str (text : String) : hasSurrogate (str text) = false :=
  hasSurrogate_map_char text.toList

theorem encode_isSome {text : Str} : text.encode.isSome = !text.hasSurrogate := by
  rw [encode, Option.isSome_map, symbols_isSome]

/-- Joined texts have a surrogate when one of them has. -/
theorem hasSurrogate_intercalate {separator : Str} (plain : separator.hasSurrogate = false)
    (texts : List Str) :
    hasSurrogate (separator.intercalate texts) = false ↔ ∀ text ∈ texts, hasSurrogate text = false := by
  induction texts with
  | nil => simp [List.intercalate, hasSurrogate]
  | cons first more ih =>
    cases more with
    | nil => simp [List.intercalate]
    | cons second more =>
      have split : separator.intercalate (first :: second :: more) =
          first ++ separator ++ separator.intercalate (second :: more) := by simp [List.intercalate]
      rw [split, hasSurrogate_append, hasSurrogate_append, plain, Bool.or_false,
        Bool.or_eq_false_iff, ih, List.forall_mem_cons (l := second :: more)]

end Str

namespace Value

variable {F : Type}

/-- The texts that a value itself holds, without those of the values in it. -/
def texts : Value F → List Str
  | .str text => [text]
  | .dict members => Dict.keys members
  | _ => []

/-- No string and no key in a value has a surrogate. -/
def Encodable (value : Value F) : Prop :=
  ∀ part ∈ value.parts, ∀ text ∈ part.texts, text.hasSurrogate = false

instance (value : Value F) : Decidable value.Encodable :=
  inferInstanceAs (Decidable (∀ part ∈ value.parts, ∀ text ∈ part.texts, text.hasSurrogate = false))

theorem encodable_list {items : List (Value F)} :
    (list items).Encodable ↔ ∀ item ∈ items, item.Encodable := by
  simp only [Encodable, mem_parts_list]
  constructor
  · intro all item found part inner
    exact all part (.inr ⟨item, found, inner⟩)
  · rintro all part (same | ⟨item, found, inner⟩)
    · cases same
      exact fun text none => absurd none List.not_mem_nil
    · exact all item found part inner

theorem encodable_dict {members : Dict (Value F)} :
    (dict members).Encodable ↔ ∀ member ∈ members,
      member.1.hasSurrogate = false ∧ member.2.Encodable := by
  simp only [Encodable, mem_parts_dict]
  constructor
  · intro all member found
    refine ⟨all _ (.inl rfl) _ (List.mem_map_of_mem found), fun part inner => ?_⟩
    exact all part (.inr ⟨member, found, inner⟩)
  · rintro all part (same | ⟨member, found, inner⟩)
    · cases same
      intro text key
      obtain ⟨member, found, rfl⟩ := List.mem_map.mp key
      exact (all member found).1
    · exact (all member found).2 part inner

end Value

end Python

namespace Json

open Python

variable {F : Type}

/-- A layout that adds no surrogate of its own and hides none. -/
structure Layout.Plain (layout : Layout F) (Covered : F → Prop) : Prop where
  itemSeparator : layout.itemSeparator.hasSurrogate = false
  keySeparator : layout.keySeparator.hasSurrogate = false
  escape : ∀ point, (layout.escape point).hasSurrogate = Str.hasSurrogate [point]
  int : ∀ value, (layout.int value).hasSurrogate = false
  float : ∀ value, Covered value → (layout.float value).hasSurrogate = false

section

variable {layout : Layout F} {Covered : F → Prop}

theorem string_hasSurrogate (plain : layout.Plain Covered) (text : Str) :
    (layout.string text).hasSurrogate = text.hasSurrogate := by
  have escaped : Str.hasSurrogate (text.flatMap layout.escape) = text.hasSurrogate := by
    induction text with
    | nil => rfl
    | cons point more ih =>
      rw [List.flatMap_cons, Str.hasSurrogate_append, plain.escape, ih,
        ← Str.hasSurrogate_append, List.singleton_append]
  have quoted : Str.hasSurrogate [quote] = false := rfl
  rw [Layout.string, Str.hasSurrogate_append, quoted, Bool.or_false, ← List.singleton_append,
    Str.hasSurrogate_append, quoted, Bool.false_or, escaped]

theorem bracket_hasSurrogate (first last : Char) (text : Str) :
    Str.hasSurrogate (.char first :: text ++ [.char last]) = text.hasSurrogate := by
  rw [Str.hasSurrogate_append]
  exact Bool.or_false _

theorem member_hasSurrogate (plain : layout.Plain Covered) (text : Str × Str) :
    (layout.member text).hasSurrogate = false ↔
      text.1.hasSurrogate = false ∧ text.2.hasSurrogate = false := by
  rw [Layout.member, Str.hasSurrogate_append, Str.hasSurrogate_append, string_hasSurrogate plain,
    plain.keySeparator, Bool.or_false, Bool.or_eq_false_iff]

/-- What is written has no surrogate when no string and no key has one. -/
theorem write_encodable (plain : layout.Plain Covered) {value : Value F}
    (covered : ∀ number, .float number ∈ value.parts → Covered number) :
    (layout.write value).hasSurrogate = false ↔ value.Encodable := by
  induction value with
  | none => simp [Layout.write, Str.hasSurrogate_str, Value.Encodable, Value.parts, Value.texts]
  | bool held =>
    cases held <;>
      simp [Layout.write, Str.hasSurrogate_str, Value.Encodable, Value.parts, Value.texts]
  | int number => simp [Layout.write, plain.int, Value.Encodable, Value.parts, Value.texts]
  | float number =>
    have text := plain.float number (covered number (Value.self_mem_parts _))
    simp [Layout.write, text, Value.Encodable, Value.parts, Value.texts]
  | str text =>
    simp [Layout.write, string_hasSurrogate plain, Value.Encodable, Value.parts, Value.texts]
  | list items ih =>
    rw [Layout.write, Layout.writeItems_eq, bracket_hasSurrogate,
      Str.hasSurrogate_intercalate plain.itemSeparator, Value.encodable_list, List.forall_mem_map]
    apply forall₂_congr
    intro item found
    exact ih item found fun number part =>
      covered number (Value.mem_parts_list.mpr (.inr ⟨item, found, part⟩))
  | dict members ih =>
    rw [Layout.write, Layout.writeMembers_eq, arrange_map, bracket_hasSurrogate,
      Str.hasSurrogate_intercalate plain.itemSeparator, Value.encodable_dict, List.forall_mem_map,
      List.forall_mem_map]
    have inner (member : Str × Value F) (found : member ∈ members) :
        (layout.member (member.1, layout.write member.2)).hasSurrogate = false ↔
          member.1.hasSurrogate = false ∧ member.2.Encodable := by
      rw [member_hasSurrogate plain, ih member found fun number part =>
        covered number (Value.mem_parts_dict.mpr (.inr ⟨member, found, part⟩))]
    constructor
    · intro all member found
      exact (inner member found).mp (all member ((arrange_perm _ members).mem_iff.mpr found))
    · intro all member found
      have held := (arrange_perm _ members).mem_iff.mp found
      exact (inner member held).mpr (all member held)

end

theorem hex4_plain (number : Nat) : (hex4 number).hasSurrogate = false :=
  Str.hasSurrogate_map_char [(number / 4096).digitChar, (number / 256 % 16).digitChar,
    (number / 16 % 16).digitChar, (number % 16).digitChar]

theorem unicodeEscape_plain (number : Nat) : (unicodeEscape number).hasSurrogate = false := by
  rw [unicodeEscape, Str.hasSurrogate_append, Str.hasSurrogate_str, hex4_plain]
  rfl

theorem escapeRaw_plain (point : CodePoint) :
    (escapeRaw point).hasSurrogate = Str.hasSurrogate [point] := by
  cases point with
  | char symbol =>
    have kept : Str.hasSurrogate [CodePoint.char symbol] = false := rfl
    rw [kept, escapeRaw]
    cases short : shortEscape (.char symbol) with
    | some escaped =>
      unfold shortEscape at short
      split at short <;> cases short <;> rfl
    | none =>
      show Str.hasSurrogate (if _ then _ else _) = false
      split
      · exact unicodeEscape_plain _
      · rfl
  | surrogate number =>
    have large : ¬ (CodePoint.surrogate number).code < 0x20 := by
      rw [CodePoint.code]
      omega
    have short : shortEscape (.surrogate number) = none := rfl
    rw [escapeRaw, short]
    exact congrArg Str.hasSurrogate (if_neg large)

theorem decimal_plain (number : Int) : (decimal number).hasSurrogate = false := by
  cases number with
  | ofNat value => exact Str.hasSurrogate_map_char _
  | negSucc value => exact Str.hasSurrogate_map_char ('-' :: Nat.toDigits 10 (value + 1))

theorem canonical_plain [Interpreter F] : (canonical : Layout F).Plain fun _ => False where
  itemSeparator := rfl
  keySeparator := rfl
  escape := escapeRaw_plain
  int := decimal_plain
  float := fun _ none => none.elim

theorem canonical_encode_isSome [Interpreter F] {value : Value F} (floatless : value.Floatless) :
    (canonical.write value).encode.isSome ↔ value.Encodable := by
  rw [Str.encode_isSome, ← write_encodable canonical_plain floatless, Bool.not_eq_true']

end Json

end ImmutableLedger
