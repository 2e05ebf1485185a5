import ImmutableLedger.Json.Encodable
import ImmutableLedger.Json.RoundTrip

/-! The canonical form of RFC 8785.

Members come in the order of their keys as UTF-16 units. A number is what ECMAScript shows of the
double nearest to it: the shortest decimal that is rounded to the same double.
-/

set_option autoImplicit false

namespace ImmutableLedger.Json

open Python

/-- The UTF-16 units of a code point. -/
def units (point : CodePoint) : List Nat :=
  if point.code < 0x10000 then [point.code] else [highSurrogate point.code, lowSurrogate point.code]

def utf16 (text : Str) : List Nat := text.flatMap units

/-- The finite doubles are below two to this power. -/
@[irreducible]
def exponentLimit : Nat := 1024

/-- The distance between doubles of the size of a number that is no smaller than `2 ^ 52`. -/
def doubleUnit (number : Nat) : Nat := 2 ^ (number.log2 - 52)

/-- A number in units, to the nearest, and of two such to the even one. -/
def significand (number : Nat) : Nat :=
  let below := number / doubleUnit number
  let rest := number % doubleUnit number
  if 2 * rest < doubleUnit number ∨ 2 * rest = doubleUnit number ∧ below % 2 = 0 then below
  else below + 1

/-- The double nearest to a natural number, if that is finite. -/
def nearestDouble (number : Nat) : Option Nat :=
  if significand number * doubleUnit number < 2 ^ exponentLimit then
    some (significand number * doubleUnit number)
  else none

/-- The multiple of a power of ten that is rounded to a double. Of two it is the nearer one, or the
one with an even quotient. -/
def shorter (double zeros : Nat) : Option Nat :=
  let power := 10 ^ zeros
  let low := double / power * power
  let high := low + power
  if nearestDouble low = some double then
    if nearestDouble high = some double ∧ (high - double < double - low ∨
        high - double = double - low ∧ double / power % 2 = 1) then some high
    else some low
  else if nearestDouble high = some double then some high
  else none

/-- The decimal with the fewest digits that is rounded to a double. -/
def shortest (double : Nat) : Nat :=
  ((List.range ((Nat.toDigits 10 double).length + 1)).reverse.findSome? (shorter double)).getD double

/-- The digits after the first one, without the zeros at the end. -/
def significantTail (digits : List Char) : Str :=
  (digits.rdropWhile (· == '0')).tail.map .char

/-- The exponential form of a number by its digits. -/
def exponential (digits : List Char) : Str :=
  (digits.take 1).map .char ++
    (if significantTail digits = [] then [] else .char '.' :: significantTail digits) ++
    str "e+" ++ decimal ((digits.length - 1 : Nat) : Int)

/-- `Number::toString` of a double that is a natural number. -/
def showDouble (double : Nat) : Str :=
  let digits := Nat.toDigits 10 (shortest double)
  if digits.length ≤ 21 then digits.map .char else exponential digits

def ecmaInteger (value : Int) : Option Str :=
  (nearestDouble value.natAbs).map fun double =>
    (if value < 0 then str "-" else []) ++ showDouble double

def jcsEscape (point : CodePoint) : Str :=
  if point.code = 0x08 then str "\\b"
  else if point.code = 0x09 then str "\\t"
  else if point.code = 0x0A then str "\\n"
  else if point.code = 0x0C then str "\\f"
  else if point.code = 0x0D then str "\\r"
  else if point.code < 0x20 then unicodeEscape point.code
  else if point = .char '\\' then str "\\\\"
  else if point = .char '"' then str "\\\""
  else [point]

section

variable {F : Type} (float : F → Str)

def jcsLayout : Layout F where
  order := some utf16
  itemSeparator := str ","
  keySeparator := str ":"
  escape := jcsEscape
  int := fun value => (ecmaInteger value).getD (str "0")
  float := float

/-- A number that is no finite double has no canonical form. -/
def representable : Value F → Bool
  | .int value => (ecmaInteger value).isSome
  | _ => true

/-- The canonical form of a value, by what ECMAScript shows of its floats. -/
def jcs (value : Value F) : Option Bytes :=
  if value.parts.all representable then ((jcsLayout float).write value).encode else none

end

/-! Numbers. -/

theorem nearestDouble_of_lt {number : Nat} (small : number < 2 ^ 53) :
    nearestDouble number = some number := by
  have exponent : number.log2 - 52 = 0 := by
    by_cases zero : number = 0
    · rw [zero]
      rfl
    · have bound := (Nat.log2_lt zero).mpr small
      omega
  have more : 53 < exponentLimit := by
    rw [exponentLimit]
    decide
  have finite : number < 2 ^ exponentLimit := small.trans (Nat.pow_lt_pow_right (by decide) more)
  have unit : doubleUnit number = 1 := by rw [doubleUnit, exponent, Nat.pow_zero]
  have whole : significand number = number := by simp [significand, unit, Nat.mod_one]
  rw [nearestDouble, whole, unit, Nat.mul_one, if_pos finite]

theorem le_nearestDouble {number double : Nat} (large : 2 ^ 53 ≤ number)
    (nearest : nearestDouble number = some double) : 2 ^ 53 ≤ double := by
  have nonzero : number ≠ 0 := by omega
  have exponent : 53 ≤ number.log2 := (Nat.le_log2 nonzero).mpr large
  have power : 2 ^ 52 * doubleUnit number = 2 ^ number.log2 := by
    rw [doubleUnit, ← Nat.pow_add, Nat.add_sub_cancel' (by omega)]
  have below : 2 ^ 52 ≤ number / doubleUnit number := by
    have positive : 0 < doubleUnit number := Nat.pow_pos (by decide)
    rw [Nat.le_div_iff_mul_le positive, power]
    exact Nat.log2_self_le nonzero
  have bound : 2 ^ 52 ≤ significand number := by
    simp only [significand]
    split <;> omega
  have same : significand number * doubleUnit number = double := by
    rw [nearestDouble] at nearest
    split at nearest
    · exact Option.some.inj nearest
    · cases nearest
  calc 2 ^ 53 ≤ 2 ^ number.log2 := Nat.pow_le_pow_right (by decide) exponent
    _ = 2 ^ 52 * doubleUnit number := power.symm
    _ ≤ significand number * doubleUnit number := Nat.mul_le_mul_right _ bound
    _ = double := same

theorem shorter_eq_some {double zeros shown : Nat} (found : shorter double zeros = some shown) :
    nearestDouble shown = some double := by
  simp only [shorter] at found
  split at found
  · next low =>
    split at found
    · next high => exact Option.some.inj found ▸ high.1
    · exact Option.some.inj found ▸ low
  · split at found
    · next high => exact Option.some.inj found ▸ high
    · cases found

/-- The integers below `2 ^ 53` are shown with their own digits. -/
theorem shortest_of_lt {number : Nat} (small : number < 2 ^ 53) : shortest number = number := by
  have only {shown : Nat} (nearest : nearestDouble shown = some number) : shown = number := by
    by_cases large : 2 ^ 53 ≤ shown
    · have bound := le_nearestDouble large nearest
      omega
    · rw [nearestDouble_of_lt (by omega)] at nearest
      exact Option.some.inj nearest
  rw [shortest]
  cases found : (List.range ((Nat.toDigits 10 number).length + 1)).reverse.findSome?
      (shorter number) with
  | none => rfl
  | some shown =>
    obtain ⟨zeros, -, some⟩ := List.exists_of_findSome?_eq_some found
    exact only (shorter_eq_some some)

/-- An integer that ECMAScript shows as it is. -/
def Shown (value : Int) : Prop :=
  (nearestDouble value.natAbs).map shortest = some value.natAbs ∧ value.natAbs < 10 ^ 21

instance (value : Int) : Decidable (Shown value) := inferInstanceAs (Decidable (_ ∧ _))

theorem shown_of_lt {value : Int} (small : value.natAbs < 2 ^ 53) : Shown value := by
  refine ⟨?_, small.trans (by decide)⟩
  rw [nearestDouble_of_lt small, Option.map_some, shortest_of_lt small]

theorem decimal_eq (value : Int) :
    decimal value = (if value < 0 then str "-" else []) ++
      (Nat.toDigits 10 value.natAbs).map .char := by
  cases value with
  | ofNat number => simp [decimal]
  | negSucc number => simp [decimal, str]

theorem ecmaInteger_of_shown {value : Int} (shown : Shown value) :
    ecmaInteger value = some (decimal value) := by
  obtain ⟨double, nearest, same⟩ := Option.map_eq_some_iff.mp shown.1
  have short : (Nat.toDigits 10 value.natAbs).length ≤ 21 :=
    (Nat.length_toDigits_le_iff (by decide) (by decide)).mpr shown.2
  rw [ecmaInteger, nearest, Option.map_some, showDouble, same, decimal_eq]
  simp only [short, if_true]

/-! What ECMAScript shows is a number of the grammar. -/

/-- The parts of the text of a double. -/
def showLiteral (negative : Bool) (digits : List Char) : Literal :=
  if digits.length ≤ 21 then ⟨negative, digits.map .char, [], []⟩
  else ⟨negative, (digits.take 1).map .char, significantTail digits,
    str "e+" ++ decimal ((digits.length - 1 : Nat) : Int)⟩

theorem showLiteral_text (value : Int) (double : Nat) :
    (showLiteral (decide (value < 0)) (Nat.toDigits 10 (shortest double))).text =
      (if value < 0 then str "-" else []) ++ showDouble double := by
  rw [showLiteral, showDouble]
  split
  · by_cases negative : value < 0 <;> simp [Literal.text, negative, str]
  · by_cases negative : value < 0 <;> simp [Literal.text, exponential, negative, str]

theorem isDigit_significantTail (number : Nat) :
    ∀ point ∈ significantTail (Nat.toDigits 10 number), isDigit point := by
  intro point found
  obtain ⟨symbol, listed, rfl⟩ := List.mem_map.mp found
  have digit := (List.rdropWhile_prefix _ _).subset (List.mem_of_mem_tail listed)
  exact Nat.isDigit_of_mem_toDigits (by decide) (by decide) digit

theorem showLiteral_wellFormed (negative : Bool) (number : Nat) :
    (showLiteral negative (Nat.toDigits 10 number)).WellFormed := by
  rw [showLiteral]
  split
  · exact ⟨toDigits_whole number, fun _ none => absurd none List.not_mem_nil, .inl rfl⟩
  · next long =>
    have positive : 0 < number := by
      by_contra zero
      rw [Nat.eq_zero_of_not_pos zero] at long
      exact long (by decide)
    obtain ⟨first, more, same⟩ := List.exists_cons_of_ne_nil (Nat.toDigits_ne_nil (n := number) (b := 10))
    have leading := toDigits_head positive
    refine ⟨.inr ⟨?_, ?_, ?_⟩, isDigit_significantTail number, .inr ?_⟩
    · simp [same]
    · rw [same] at leading ⊢
      simpa using leading
    · intro point found
      rw [List.map_take] at found
      exact isDigit_toDigits number point (List.mem_of_mem_take found)
    · refine ⟨.char 'e', [.char '+'], _, rfl, .inl rfl, by simp, ?_, isDigit_toDigits _⟩
      show (Nat.toDigits 10 _).map CodePoint.char ≠ []
      simp [Nat.toDigits_ne_nil]

theorem jcsEscape_eq : jcsEscape = escapeRaw := by
  funext point
  cases short : shortEscape point with
  | some escaped =>
    rw [escapeRaw, short]
    unfold shortEscape at short
    split at short <;> cases short <;> rfl
  | none =>
    have other {symbol : Char} (named : shortEscape (.char symbol) ≠ none) :
        point.code ≠ symbol.toNat := by
      intro same
      have chosen : point = .char symbol := CodePoint.code_injective same
      exact named (chosen ▸ short)
    have backspace : point.code ≠ 0x08 := @other '\x08' (by decide)
    have tab : point.code ≠ 0x09 := @other '\t' (by decide)
    have lineFeed : point.code ≠ 0x0A := @other '\n' (by decide)
    have formFeed : point.code ≠ 0x0C := @other '\x0c' (by decide)
    have carriageReturn : point.code ≠ 0x0D := @other '\r' (by decide)
    have backslash : point ≠ .char '\\' := fun same => by cases same; cases short
    have quote : point ≠ .char '"' := fun same => by cases same; cases short
    rw [escapeRaw, short, jcsEscape, if_neg backspace, if_neg tab, if_neg lineFeed, if_neg formFeed,
      if_neg carriageReturn]
    simp only [if_neg backslash, if_neg quote]

/-! The order of keys. -/

theorem units_ne_nil (point : CodePoint) : units point ≠ [] := by
  rw [units]
  split <;> exact List.cons_ne_nil _ _

theorem units_append_inj {first second : Char} {rest more : List Nat}
    (same : units (.char first) ++ rest = units (.char second) ++ more) :
    first = second ∧ rest = more := by
  have outside (symbol : Char) :
      symbol.toNat < 0xD800 ∨ 0xDFFF < symbol.toNat ∧ symbol.toNat < 0x110000 := symbol.valid
  have firstRange := outside first
  have secondRange := outside second
  have codes : first.toNat = second.toNat ∧ rest = more := by
    simp only [units, CodePoint.code] at same
    by_cases small : first.toNat < 0x10000 <;> by_cases also : second.toNat < 0x10000 <;>
      simp only [small, also, if_true, if_false, highSurrogate, lowSurrogate, List.cons_append,
        List.nil_append, List.cons.injEq] at same
    · exact same
    · omega
    · omega
    · obtain ⟨high, low, rests⟩ := same
      exact ⟨by omega, rests⟩
  exact ⟨Char.ext (UInt32.toNat_inj.mp codes.1), codes.2⟩

/-- A text without surrogates is determined by its UTF-16 units. -/
theorem utf16_inj {first second : Str} (plain : first.hasSurrogate = false)
    (also : second.hasSurrogate = false) (same : utf16 first = utf16 second) : first = second := by
  induction first generalizing second with
  | nil =>
    cases second with
    | nil => rfl
    | cons point rest =>
      have empty := List.append_eq_nil_iff.mp (same.symm : units point ++ utf16 rest = [])
      exact absurd empty.1 (units_ne_nil point)
  | cons point rest ih =>
    cases second with
    | nil =>
      have empty := List.append_eq_nil_iff.mp (same : units point ++ utf16 rest = [])
      exact absurd empty.1 (units_ne_nil point)
    | cons other more =>
      cases point with
      | surrogate number => cases plain
      | char symbol =>
        cases other with
        | surrogate number => cases also
        | char chosen =>
          obtain ⟨rfl, rests⟩ := units_append_inj same
          have tail : rest = more := ih plain (also : Str.hasSurrogate more = false) rests
          rw [tail]

/-- Whether sorting by UTF-16 units leaves keys in the order of their code points. -/
def OrderedAlike (keys : List Str) : Prop :=
  ∀ first ∈ keys, ∀ second ∈ keys, first.codes ≤ second.codes → utf16 first ≤ utf16 second

instance (keys : List Str) : Decidable (OrderedAlike keys) :=
  inferInstanceAs (Decidable (∀ first ∈ keys, ∀ second ∈ keys, _ → _))

theorem arrange_of_orderedAlike {α : Type} {members : Dict α} (distinct : (Dict.keys members).Nodup)
    (plain : ∀ key ∈ Dict.keys members, key.hasSurrogate = false)
    (alike : OrderedAlike (Dict.keys members)) :
    arrange (some Str.codes) members = arrange (some utf16) members := by
  have perm : (arrange (some Str.codes) members).Perm (arrange (some utf16) members) :=
    (arrange_perm _ members).trans (arrange_perm _ members).symm
  have key {order : Str → List Nat} {member : Str × α} (found : member ∈ arrange (some order) members) :
      member ∈ members := (arrange_perm _ members).mem_iff.mp found
  have sorted : (arrange (some Str.codes) members).Pairwise fun first second =>
      utf16 first.1 ≤ utf16 second.1 := by
    apply (arrange_pairwise Str.codes members).imp_of_mem
    intro first second found also before
    exact alike _ (List.mem_map_of_mem (key found)) _ (List.mem_map_of_mem (key also)) before
  apply perm.eq_of_pairwise _ sorted (arrange_pairwise utf16 members)
  intro first second found also before after
  have same : first.1 = second.1 := utf16_inj (plain _ (List.mem_map_of_mem (key found)))
    (plain _ (List.mem_map_of_mem (key also))) (le_antisymm before after)
  exact List.inj_on_of_nodup_map distinct (key found) (key also) same

theorem orderedAlike_of_keys {α : Type} {members : Dict α}
    (same : Dict.keys (arrange (some Str.codes) members) = Dict.keys (arrange (some utf16) members)) :
    OrderedAlike (Dict.keys members) := by
  have byCodes : (Dict.keys (arrange (some Str.codes) members)).Pairwise fun first second =>
      first.codes ≤ second.codes := List.pairwise_map.mpr (arrange_pairwise Str.codes members)
  have byUnits : (Dict.keys (arrange (some Str.codes) members)).Pairwise fun first second =>
      utf16 first ≤ utf16 second := same ▸ List.pairwise_map.mpr (arrange_pairwise utf16 members)
  have kept : (Dict.keys (arrange (some Str.codes) members)).Perm (Dict.keys members) :=
    (arrange_perm _ members).map _
  -- Of two keys the first in the list comes first by both orders.
  have all : ∀ ⦃first⦄, first ∈ Dict.keys (arrange (some Str.codes) members) →
      ∀ ⦃second⦄, second ∈ Dict.keys (arrange (some Str.codes) members) →
        first.codes ≤ second.codes → utf16 first ≤ utf16 second := by
    apply List.Pairwise.forall_of_forall_of_flip
    · exact fun _ _ _ => le_refl _
    · apply byUnits.imp
      exact fun before _ => before
    · exact byCodes.imp fun before after =>
        le_of_eq (congrArg utf16 (Str.codes_injective (le_antisymm after before)))
  intro first found second also before
  exact all (kept.mem_iff.mpr found) (kept.mem_iff.mpr also) before

/-! Agreement. -/

section

variable {F : Type} (float : F → Str)

/-- What is read for an integer of a canonical form. -/
def readInteger (value : Int) : Value Literal :=
  match nearestDouble value.natAbs with
  | none => .int 0
  | some double =>
    let literal := showLiteral (decide (value < 0)) (Nat.toDigits 10 (shortest double))
    if literal.fraction = [] ∧ literal.exponent = [] then .int literal.integer else .float literal

def literals : Dialect Literal where
  float := id
  constant := fun _ => none

theorem jcs_readable : (jcsLayout float).Readable literals readInteger (fun _ => none)
    fun _ => False where
  itemSeparator := rfl
  keySeparator := rfl
  escape := jcsEscape_eq
  int := by
    intro value
    show Scalar literals ((ecmaInteger value).getD (str "0")) (some (readInteger value))
    cases nearest : nearestDouble value.natAbs with
    | none =>
      rw [ecmaInteger, readInteger, nearest]
      exact scalar_decimal literals 0
    | some double =>
      rw [ecmaInteger, readInteger, nearest, Option.map_some, Option.getD_some, ← showLiteral_text]
      exact scalar_literal literals (showLiteral_wellFormed _ _)
  float := fun _ none => none.elim

theorem shown_of_readInteger {value : Int} (representable : (ecmaInteger value).isSome)
    (same : readInteger value = .int value) : Shown value := by
  rw [ecmaInteger, Option.isSome_map] at representable
  obtain ⟨double, nearest⟩ := Option.isSome_iff_exists.mp representable
  rw [readInteger, nearest] at same
  by_cases short : (Nat.toDigits 10 (shortest double)).length ≤ 21
  · have shown : shortest double = value.natAbs := by
      simp only [showLiteral, short, if_true, and_self, Literal.integer, natural_toDigits,
        Value.int.injEq, decide_eq_true_eq] at same
      split at same <;> omega
    refine ⟨by rw [nearest, Option.map_some, shown], ?_⟩
    rw [shown] at short
    exact (Nat.length_toDigits_le_iff (by decide) (by decide)).mp short
  · simp [showLiteral, short, str] at same

/-- Every integer of a value is shown with its own digits, and the keys of every object in it come
in one order by code points and by UTF-16 units. -/
structure Agrees (value : Value F) : Prop where
  integers : ∀ number, .int number ∈ value.parts → Shown number
  keys : ∀ members, .dict members ∈ value.parts → OrderedAlike (Dict.keys members)

theorem Agrees.item {items : List (Value F)} (agrees : Agrees (.list items)) {item : Value F}
    (found : item ∈ items) : Agrees item where
  integers number part := agrees.integers number (Value.mem_parts_list.mpr (.inr ⟨item, found, part⟩))
  keys members part := agrees.keys members (Value.mem_parts_list.mpr (.inr ⟨item, found, part⟩))

theorem Agrees.member {members : Dict (Value F)} (agrees : Agrees (.dict members))
    {member : Str × Value F} (found : member ∈ members) : Agrees member.2 where
  integers number part :=
    agrees.integers number (Value.mem_parts_dict.mpr (.inr ⟨member, found, part⟩))
  keys inner part := agrees.keys inner (Value.mem_parts_dict.mpr (.inr ⟨member, found, part⟩))

theorem jcs_string [Interpreter F] (text : Str) :
    (jcsLayout float).string text = (canonical : Layout F).string text := by
  have escape : (jcsLayout float).escape = (canonical : Layout F).escape := jcsEscape_eq
  rw [Layout.string, Layout.string, escape]

theorem jcs_write_of_agrees [Interpreter F] {value : Value F} (distinct : value.Distinct)
    (floatless : value.Floatless) (encodable : value.Encodable) (agrees : Agrees value) :
    (jcsLayout float).write value = canonical.write value := by
  induction value with
  | none => rfl
  | bool held => cases held <;> rfl
  | int number =>
    have shown := agrees.integers number (Value.self_mem_parts _)
    show (ecmaInteger number).getD (str "0") = decimal number
    rw [ecmaInteger_of_shown shown, Option.getD_some]
  | float number => exact absurd (Value.self_mem_parts _) (floatless number)
  | str text =>
    rw [Layout.write, Layout.write, jcs_string]
  | list items ih =>
    have same : items.map (jcsLayout float).write = items.map canonical.write := by
      apply List.map_congr_left
      intro item found
      exact ih item found (distinct.item found) (Value.floatless_list.mp floatless item found)
        (Value.encodable_list.mp encodable item found) (agrees.item found)
    rw [Layout.write, Layout.write, Layout.writeItems_eq, Layout.writeItems_eq, same]
    rfl
  | dict members ih =>
    have same : (members.map fun member => (member.1, (jcsLayout float).write member.2)) =
        members.map fun member => (member.1, canonical.write member.2) := by
      apply List.map_congr_left
      intro member found
      rw [ih member found (distinct.member found) (Value.floatless_dict.mp floatless member found)
        (Value.encodable_dict.mp encodable member found).2 (agrees.member found)]
    have keys : Dict.keys (members.map fun member => (member.1, canonical.write member.2)) =
        Dict.keys members := by
      rw [Dict.keys, List.map_map]
      rfl
    have order := @arrange_of_orderedAlike _
      (members.map fun member => (member.1, canonical.write member.2))
      (keys ▸ distinct.keys)
      (keys ▸ encodable _ (Value.self_mem_parts _)) (keys ▸ agrees.keys _ (Value.self_mem_parts _))
    have texts : (jcsLayout float).member = (canonical : Layout F).member := by
      funext text
      rw [Layout.member, Layout.member, jcs_string]
      rfl
    rw [Layout.write, Layout.write, Layout.writeMembers_eq, Layout.writeMembers_eq, same, texts]
    show _ :: List.intercalate _ ((arrange (some utf16) _).map _) ++ _ = _
    rw [← order]
    rfl

theorem agrees_of_convert {value : Value F} (distinct : value.Distinct)
    (encodable : value.Encodable) {found : Value Literal}
    (first : (arranged (some Str.codes) value).convert .int (fun _ => none) = some found)
    (second : (arranged (some utf16) value).convert readInteger (fun _ => none) = some found) :
    (∀ number, .int number ∈ value.parts → readInteger number = .int number) ∧
      ∀ members, .dict members ∈ value.parts → OrderedAlike (Dict.keys members) := by
  induction value generalizing found with
  | int number =>
    have same : Value.int number = readInteger number :=
      Option.some.inj (first.trans second.symm)
    refine ⟨fun other part => ?_, fun members part => ?_⟩
    · cases List.mem_singleton.mp part
      exact same.symm
    · cases List.mem_singleton.mp part
  | list items ih =>
    rw [arranged_list, Value.convert, Value.convertItems_eq, List.mapM_map] at first second
    obtain ⟨these, firsts, rfl⟩ := Option.map_eq_some_iff.mp first
    obtain ⟨those, seconds, same⟩ := Option.map_eq_some_iff.mp second
    cases same
    have each (item : Value F) (held : item ∈ items) :
        (∀ number, .int number ∈ item.parts → readInteger number = .int number) ∧
          ∀ members, .dict members ∈ item.parts → OrderedAlike (Dict.keys members) := by
      obtain ⟨value, first, second⟩ := Value.mapM_same firsts seconds item held
      exact ih item held (distinct.item held) (Value.encodable_list.mp encodable item held) first
        second
    constructor
    · intro number part
      obtain same | ⟨item, held, part⟩ := Value.mem_parts_list.mp part
      · cases same
      · exact (each item held).1 number part
    · intro members part
      obtain same | ⟨item, held, part⟩ := Value.mem_parts_list.mp part
      · cases same
      · exact (each item held).2 members part
  | dict members ih =>
    rw [arranged_dict, Value.convert, Value.convertMembers_eq, Dict.convert_map] at first second
    obtain ⟨these, firsts, rfl⟩ := Option.map_eq_some_iff.mp first
    obtain ⟨those, seconds, same⟩ := Option.map_eq_some_iff.mp second
    cases same
    have keys := (Dict.keys_convert firsts).symm.trans (Dict.keys_convert seconds)
    have alike := orderedAlike_of_keys keys
    have order := arrange_of_orderedAlike distinct.keys (encodable _ (Value.self_mem_parts _)) alike
    rw [← order] at seconds
    have each (member : Str × Value F) (held : member ∈ members) :
        (∀ number, .int number ∈ member.2.parts → readInteger number = .int number) ∧
          ∀ members, .dict members ∈ member.2.parts → OrderedAlike (Dict.keys members) := by
      obtain ⟨value, first, second⟩ := Dict.convert_same firsts seconds member
        ((arrange_perm _ members).mem_iff.mpr held)
      exact ih member held (distinct.member held)
        (Value.encodable_dict.mp encodable member held).2 first second
    constructor
    · intro number part
      obtain same | ⟨member, held, part⟩ := Value.mem_parts_dict.mp part
      · cases same
      · exact (each member held).1 number part
    · intro inner part
      obtain same | ⟨member, held, part⟩ := Value.mem_parts_dict.mp part
      · cases same
        exact alike
      · exact (each member held).2 inner part
  | _ =>
    refine ⟨fun other part => ?_, fun members part => ?_⟩ <;> cases List.mem_singleton.mp part

/-- The compact text of Python is the canonical form exactly when the value agrees. -/
theorem jcs_eq_some [Interpreter F] {value : Value F} (distinct : value.Distinct)
    (floatless : value.Floatless) {bytes : Bytes}
    (encoded : (canonical.write value).encode = some bytes) :
    jcs float value = some bytes ↔ Agrees value := by
  have encodable : value.Encodable :=
    (canonical_encode_isSome floatless).mp (Option.isSome_iff_exists.mpr ⟨bytes, encoded⟩)
  constructor
  · intro same
    rw [jcs] at same
    split at same
    · next all =>
      have texts := Str.encode_inj same encoded
      have first := read_write (canonical_readable literals fun _ => none) distinct floatless
      have second := read_write (jcs_readable float) distinct floatless
      obtain ⟨found, converted⟩ :=
        (arranged_floatless (some Str.codes) floatless).exists_convert .int
          fun _ => (none : Option (Value Literal))
      rw [texts, first] at second
      obtain ⟨integers, keys⟩ := agrees_of_convert distinct encodable converted
        (second.symm.trans converted)
      refine ⟨fun number held => ?_, keys⟩
      exact shown_of_readInteger (List.all_eq_true.mp all _ held) (integers number held)
    · cases same
  · intro agrees
    have all : value.parts.all representable := by
      rw [List.all_eq_true]
      intro part held
      cases part with
      | int number =>
        rw [representable, ecmaInteger_of_shown (agrees.integers number held), Option.isSome_some]
      | _ => rfl
    rw [jcs, if_pos all, jcs_write_of_agrees float distinct floatless encodable agrees, encoded]

end

theorem utf16_of_basic {text : Str} (basic : ∀ point ∈ text, point.code < 0x10000) :
    utf16 text = text.codes := by
  induction text with
  | nil => rfl
  | cons point rest ih =>
    obtain ⟨small, tail⟩ := List.forall_mem_cons.mp basic
    rw [utf16, List.flatMap_cons, units, if_pos small]
    exact congrArg (point.code :: ·) (ih tail)

/-- Ordinary data agrees: integers that a double holds exactly, and keys of the basic plane. -/
theorem agrees_of_basic {F : Type} {value : Value F}
    (integers : ∀ number, .int number ∈ value.parts → number.natAbs < 2 ^ 53)
    (keys : ∀ members, .dict members ∈ value.parts →
      ∀ key ∈ Dict.keys members, ∀ point ∈ key, point.code < 0x10000) : Agrees value where
  integers number part := shown_of_lt (integers number part)
  keys members part first found second also before := by
    rwa [utf16_of_basic (keys members part first found), utf16_of_basic (keys members part second also)]

end ImmutableLedger.Json
