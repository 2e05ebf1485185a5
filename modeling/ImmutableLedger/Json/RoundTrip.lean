import ImmutableLedger.Json.Equal
import ImmutableLedger.Json.Read

/-! Reading back what was written.

A compact text is read as the value it was written for, with the members of its objects in the
order in which they stand. The induction is over the value; the reader needs no more fuel than
twice the length of the text before it.
-/

set_option autoImplicit false

namespace ImmutableLedger.Json

open Python

variable {F G : Type}

/-! Strings. -/

theorem ofCode_code {point : CodePoint} : CodePoint.ofCode point.code = point := by
  cases point with
  | char symbol =>
    have outside : ¬ (0xD800 ≤ symbol.toNat ∧ symbol.toNat < 0xE000) := by
      rcases symbol.valid with low | ⟨high, -⟩
      · intro within
        exact absurd low (by show ¬ symbol.toNat < _; omega)
      · intro within
        exact absurd high (by show ¬ _ < symbol.toNat; omega)
    rw [CodePoint.code, CodePoint.ofCode, dif_neg outside, Char.ofNat_toNat]
  | surrogate number =>
    have within : 0xD800 ≤ 0xD800 + number.val ∧ 0xD800 + number.val < 0xE000 := by omega
    rw [CodePoint.code, CodePoint.ofCode, dif_pos within]
    exact congrArg _ (Fin.ext (by simp))

theorem hexDigit_digitChar : ∀ digit < 16, hexDigit (.char (Nat.digitChar digit)) = some digit := by
  decide

theorem hexadecimal_hex4 {number : Nat} (small : number < 0x10000) :
    hexadecimal (hex4 number) = some number := by
  have first := hexDigit_digitChar (number / 4096) (by omega)
  have second := hexDigit_digitChar (number / 256 % 16) (by omega)
  have third := hexDigit_digitChar (number / 16 % 16) (by omega)
  have fourth := hexDigit_digitChar (number % 16) (by omega)
  simp only [hexadecimal, hex4, List.map_cons, List.map_nil, List.foldlM_cons, List.foldlM_nil, first,
    second, third, fourth, Option.map_some, Option.bind_eq_bind, Option.bind_some, Option.pure_def,
    Option.some.injEq]
  omega

/-- The piece that is read for a code point. -/
def piece (point : CodePoint) : Piece :=
  ⟨point, (shortEscape point).isNone && decide (point.code < 0x20)⟩

theorem pieces_numbered {point : CodePoint} (control : point.code < 0x20) (rest : Str) :
    pieces (unicodeEscape point.code ++ rest) =
      (pieces rest).map fun found => (⟨point, true⟩ :: found.1, found.2) := by
  have number : hexadecimal (hex4 point.code) = some point.code := hexadecimal_hex4 (by omega)
  rw [hex4, List.map_cons, List.map_cons, List.map_cons, List.map_cons, List.map_nil] at number
  have text : unicodeEscape point.code ++ rest = .char '\\' :: .char 'u' ::
      .char (Nat.digitChar (point.code / 4096)) :: .char (Nat.digitChar (point.code / 256 % 16)) ::
      .char (Nat.digitChar (point.code / 16 % 16)) :: .char (Nat.digitChar (point.code % 16)) ::
      rest := rfl
  rw [text, pieces, number, Option.bind_eq_bind, Option.bind_some, ofCode_code]
  cases pieces rest <;> rfl

theorem pieces_raw {point : CodePoint} (plain : shortEscape point = none)
    (shown : 0x20 ≤ point.code) (rest : Str) :
    pieces (point :: rest) = (pieces rest).map fun found => (⟨point, false⟩ :: found.1, found.2) := by
  have quote : point ≠ .char '"' := fun same => by cases same; cases plain
  have escape : point ≠ .char '\\' := fun same => by cases same; cases plain
  rw [pieces]
  · rw [guard, if_pos shown]
    cases pieces rest <;> rfl
  · exact quote
  · exact fun _ _ _ _ _ same _ => escape same
  · exact fun _ _ same _ => escape same

theorem pieces_escapeRaw (point : CodePoint) (rest : Str) :
    pieces (escapeRaw point ++ rest) =
      (pieces rest).map fun found => (piece point :: found.1, found.2) := by
  cases short : shortEscape point with
  | some escaped =>
    have read : pieces (escaped ++ rest) =
        (pieces rest).map fun found => (⟨point, false⟩ :: found.1, found.2) := by
      unfold shortEscape at short
      split at short <;> cases short <;> cases found : pieces rest <;> simp [str, pieces, unescape, found]
    rw [escapeRaw, short, piece, short]
    exact read
  | none =>
    by_cases control : point.code < 0x20
    · rw [escapeRaw, short, piece, short]
      simp only [control, if_true, Option.isNone_none, decide_true, Bool.and_true]
      exact pieces_numbered control rest
    · rw [escapeRaw, short, piece, short]
      simp only [control, if_false, Option.isNone_none, decide_false, Bool.and_false]
      exact pieces_raw short (by omega) rest

theorem pieces_text (text rest : Str) :
    pieces (text.flatMap escapeRaw ++ quote :: rest) = some (text.map piece, rest) := by
  induction text with
  | nil => rfl
  | cons point more ih =>
    rw [List.flatMap_cons, List.append_assoc, pieces_escapeRaw, ih]
    rfl

theorem piece_surrogate (number : Fin 0x800) : (piece (.surrogate number)).numbered = false := by
  have large : ¬ 0xD800 + number.val < 0x20 := by omega
  simp [piece, CodePoint.code, large]

/-- No surrogate is written by its number, so none is joined to another. -/
theorem joined_pieces (text : Str) : joined (text.map piece) = text := by
  induction text with
  | nil => rfl
  | cons point more ih =>
    rw [List.map_cons, joined, ih]
    · rfl
    · intro high low rest numbered _
      have point : point = .surrogate high := congrArg Piece.point numbered
      rw [point] at numbered
      exact Bool.false_ne_true ((piece_surrogate high).symm.trans (congrArg Piece.numbered numbered))

theorem string_escapeRaw (text rest : Str) :
    string (text.flatMap escapeRaw ++ quote :: rest) = some (text, rest) := by
  simp only [string, pieces_text, Option.map_some, joined_pieces]

/-! Scalars. -/

/-- What comes after a value in a compact text: nothing, a comma or a closing bracket. -/
def Delimited (rest : Str) : Prop := ∀ point ∈ rest.head?, point ∈ [.char ',', .char ']', .char '}']

/-- The symbols with which no number and no word begins. -/
def openings : List CodePoint := blanks ++ [quote, .char '[', .char ']', .char '{']

/-- A text that is read as one scalar whatever comes after it, or as nothing. -/
structure Scalar (dialect : Dialect G) (text : Str) (found : Option (Value G)) : Prop where
  opening : ∃ point more, text = point :: more ∧ point ∉ openings
  read : ∀ rest, Delimited rest →
    scalar dialect (text ++ rest) = found.map fun value => (value, rest)

theorem skip_cons {point : CodePoint} (visible : point ∉ blanks) (rest : Str) :
    skip (point :: rest) = point :: rest := by
  rw [skip, List.dropWhile_cons_of_neg]
  simpa using visible

theorem value_scalar {dialect : Dialect G} {text : Str} {found : Option (Value G)}
    (scalar : Scalar dialect text found) (fuel : Nat) {rest : Str} (delimited : Delimited rest) :
    value dialect (fuel + 1) (text ++ rest) = found.map fun value => (value, rest) := by
  obtain ⟨point, more, same, plain⟩ := scalar.opening
  have apart : point ∉ blanks ∧ point ≠ quote ∧ point ≠ .char '[' ∧ point ≠ .char ']' ∧
      point ≠ .char '{' := by
    simpa [openings, not_or] using plain
  obtain ⟨visible, quote, bracket, -, brace⟩ := apart
  rw [← scalar.read rest delimited, same, List.cons_append, value, skip_cons visible]
  split
  · next begins => exact absurd (List.cons.inj begins).1 quote
  · next begins => exact absurd (List.cons.inj begins).1 bracket
  · next begins => exact absurd (List.cons.inj begins).1 brace
  · rfl

theorem word_constant (dialect : Dialect G) (constant : NonFinite) (rest : Str) :
    word dialect (constant.name ++ rest) =
      ((dialect.constant constant).map .float).map fun value => (value, rest) := by
  cases constant with
  | nan => cases held : dialect.constant .nan <;> simp only [word, words, held] <;> rfl
  | infinity => cases held : dialect.constant .infinity <;> simp only [word, words, held] <;> rfl
  | negativeInfinity =>
    cases held : dialect.constant .negativeInfinity <;> simp only [word, words, held] <;> rfl

theorem scalar_constant (dialect : Dialect G) (constant : NonFinite) :
    Scalar dialect constant.name ((dialect.constant constant).map .float) := by
  cases constant with
  | nan => exact ⟨⟨_, _, rfl, by decide⟩, fun rest _ => word_constant dialect .nan rest⟩
  | infinity => exact ⟨⟨_, _, rfl, by decide⟩, fun rest _ => word_constant dialect .infinity rest⟩
  | negativeInfinity =>
    exact ⟨⟨_, _, rfl, by decide⟩, fun rest _ => word_constant dialect .negativeInfinity rest⟩

theorem scalar_null (dialect : Dialect G) : Scalar dialect (str "null") (some .none) :=
  ⟨⟨_, _, rfl, by decide⟩, fun _ _ => rfl⟩

theorem scalar_bool (dialect : Dialect G) (held : Bool) :
    Scalar dialect (if held then str "true" else str "false") (some (.bool held)) := by
  cases held with
  | true => exact ⟨⟨_, _, rfl, by decide⟩, fun _ _ => rfl⟩
  | false => exact ⟨⟨_, _, rfl, by decide⟩, fun _ _ => rfl⟩

/-! Numbers. -/

/-- The text of a number. -/
def Literal.text (literal : Literal) : Str :=
  (if literal.negative then [.char '-'] else []) ++ literal.whole ++
    (if literal.fraction = [] then [] else .char '.' :: literal.fraction) ++ literal.exponent

/-- What the grammar asks of the parts of a number. -/
structure Literal.WellFormed (literal : Literal) : Prop where
  whole : literal.whole = str "0" ∨ (literal.whole ≠ [] ∧ literal.whole.head? ≠ some (.char '0') ∧
    ∀ point ∈ literal.whole, isDigit point)
  fraction : ∀ point ∈ literal.fraction, isDigit point
  exponent : literal.exponent = [] ∨ ∃ letter sign digits, literal.exponent = letter :: sign ++ digits ∧
    (letter = .char 'e' ∨ letter = .char 'E') ∧ sign ∈ [[], [.char '+'], [.char '-']] ∧ digits ≠ [] ∧
    ∀ point ∈ digits, isDigit point

theorem span_digits {digits rest : Str} (all : ∀ point ∈ digits, isDigit point)
    (stop : ∀ point ∈ rest.head?, ¬ isDigit point) :
    (digits ++ rest).takeWhile isDigit = digits ∧ (digits ++ rest).dropWhile isDigit = rest := by
  have stops : rest.takeWhile isDigit = [] ∧ rest.dropWhile isDigit = rest := by
    cases rest with
    | nil => exact ⟨rfl, rfl⟩
    | cons point more =>
      have other := stop point rfl
      exact ⟨List.takeWhile_cons_of_neg other, List.dropWhile_cons_of_neg other⟩
  rw [List.takeWhile_append_of_pos all, List.dropWhile_append_of_pos all, stops.1, stops.2]
  exact ⟨List.append_nil digits, rfl⟩

/-- Where the digits of a number end. -/
theorem Delimited.stop {rest : Str} (delimited : Delimited rest) :
    ∀ point ∈ rest.head?, ¬ isDigit point ∧ point ∉ str ".eE" := by
  intro point first
  have listed := delimited point first
  simp only [List.mem_cons, List.not_mem_nil, or_false] at listed
  rcases listed with rfl | rfl | rfl <;> decide

theorem expect_none {symbol : Char} {text : Str} (other : .char symbol ∉ text.head?) :
    expect symbol text = none := by
  cases text with
  | nil => rfl
  | cons point rest => exact if_neg fun same => other (congrArg some same)

theorem whole_text {literal : Literal} (wellFormed : literal.WellFormed) {rest : Str}
    (stop : ∀ point ∈ rest.head?, ¬ isDigit point) :
    whole (literal.whole ++ rest) = some (literal.whole, rest) := by
  rcases wellFormed.whole with zero | ⟨some, leading, digits⟩
  · rw [zero]
    rfl
  · obtain ⟨taken, left⟩ := span_digits digits stop
    have first : (literal.whole ++ rest).head? = literal.whole.head? :=
      List.head?_append_of_ne_nil _ some
    have other : expect '0' (literal.whole ++ rest) = none :=
      expect_none fun same => leading (by rwa [first] at same)
    rw [whole, other]
    simp [List.span_eq_takeWhile_dropWhile, taken, left, some]

def Literal.fractionText (literal : Literal) : Str :=
  if literal.fraction = [] then [] else .char '.' :: literal.fraction

theorem fraction_text {literal : Literal} (wellFormed : literal.WellFormed) {rest : Str}
    (stop : ∀ point ∈ rest.head?, ¬ isDigit point) (other : .char '.' ∉ rest.head?) :
    fraction (literal.fractionText ++ rest) = (literal.fraction, rest) := by
  by_cases empty : literal.fraction = []
  · rw [Literal.fractionText, if_pos empty, List.nil_append, fraction, expect_none other, empty]
  · obtain ⟨taken, left⟩ := span_digits wellFormed.fraction stop
    have point : expect '.' (literal.fractionText ++ rest) = some (literal.fraction ++ rest) := by
      rw [Literal.fractionText, if_neg empty]
      rfl
    rw [fraction, point]
    simp [List.span_eq_takeWhile_dropWhile, taken, left, empty]

theorem not_isSign {point : CodePoint} (digit : isDigit point) : isSign point = false := by
  rw [isSign, Bool.or_eq_false_iff, beq_eq_false_iff_ne, beq_eq_false_iff_ne]
  constructor <;> rintro rfl <;> exact absurd digit (by decide)

theorem exponent_text {literal : Literal} (wellFormed : literal.WellFormed) {rest : Str}
    (stop : ∀ point ∈ rest.head?, ¬ isDigit point ∧ point ∉ str ".eE") :
    exponent (literal.exponent ++ rest) = (literal.exponent, rest) := by
  rcases wellFormed.exponent with none | ⟨letter, sign, digits, same, opens, signed, some, all⟩
  · rw [none, List.nil_append]
    cases rest with
    | nil => rfl
    | cons point more =>
      have other := (stop point rfl).2
      have plain : ¬ (point = .char 'e' ∨ point = .char 'E') := by
        rintro (rfl | rfl) <;> exact other (by decide)
      rw [exponent, if_neg plain]
  · obtain ⟨taken, left⟩ := span_digits all fun point first => (stop point first).1
    obtain ⟨digit, more, rfl⟩ := List.exists_cons_of_ne_nil some
    have unsigned := not_isSign (all digit List.mem_cons_self)
    have signs : sign.length ≤ 1 ∧
        (sign ++ (digit :: more ++ rest)).span isSign = (sign, digit :: more ++ rest) := by
      have plus : isSign (.char '+') = true := by decide
      have minus : isSign (.char '-') = true := by decide
      simp only [List.mem_cons, List.not_mem_nil, or_false] at signed
      rcases signed with rfl | rfl | rfl <;>
        simp [List.span_eq_takeWhile_dropWhile, unsigned, plus, minus]
    rw [same, List.cons_append, List.cons_append, List.append_assoc, exponent, if_pos opens, signs.2]
    rw [List.cons_append] at taken left
    simp [signs.1, taken, left]

/-- A number starts with a digit once its sign is read. -/
theorem Literal.WellFormed.digit {literal : Literal} (wellFormed : literal.WellFormed) :
    ∃ point more, literal.whole = point :: more ∧ isDigit point := by
  rcases wellFormed.whole with zero | ⟨some, -, digits⟩
  · exact ⟨.char '0', [], zero, by decide⟩
  · obtain ⟨point, more, same⟩ := List.exists_cons_of_ne_nil some
    exact ⟨point, more, same, digits point (same ▸ List.mem_cons_self)⟩

theorem Literal.WellFormed.afterExponent {literal : Literal} (wellFormed : literal.WellFormed)
    {rest : Str} (delimited : Delimited rest) :
    ∀ point ∈ (literal.exponent ++ rest).head?, ¬ isDigit point ∧ point ≠ .char '.' := by
  intro point first
  rcases wellFormed.exponent with none | ⟨letter, sign, digits, same, opens, -⟩
  · rw [none] at first
    obtain ⟨stop, other⟩ := delimited.stop point first
    exact ⟨stop, fun same => other (same ▸ by decide)⟩
  · rw [same] at first
    cases Option.some.inj first
    rcases opens with rfl | rfl <;> decide

theorem Literal.WellFormed.afterFraction {literal : Literal} (wellFormed : literal.WellFormed)
    {rest : Str} (delimited : Delimited rest) :
    ∀ point ∈ (literal.fractionText ++ (literal.exponent ++ rest)).head?, ¬ isDigit point := by
  intro point first
  by_cases empty : literal.fraction = []
  · rw [fractionText, if_pos empty] at first
    exact (wellFormed.afterExponent delimited point first).1
  · rw [fractionText, if_neg empty] at first
    cases Option.some.inj first
    decide

theorem Literal.WellFormed.sign {literal : Literal} (wellFormed : literal.WellFormed) (rest : Str) :
    Json.sign (literal.text ++ rest) =
      (literal.negative, literal.whole ++ (literal.fractionText ++ (literal.exponent ++ rest))) := by
  have text : literal.text ++ rest = (if literal.negative then [.char '-'] else []) ++
      (literal.whole ++ (literal.fractionText ++ (literal.exponent ++ rest))) := by
    simp only [Literal.text, fractionText, List.append_assoc]
  rw [text]
  cases literal.negative with
  | true => rfl
  | false =>
    obtain ⟨point, more, same, digit⟩ := wellFormed.digit
    have other : expect '-' (literal.whole ++ (literal.fractionText ++ (literal.exponent ++ rest))) =
        none := by
      apply expect_none
      intro first
      rw [same] at first
      cases Option.some.inj first
      exact absurd digit (by decide)
    simp [Json.sign, other]

theorem literal_text {literal : Literal} (wellFormed : literal.WellFormed) {rest : Str}
    (delimited : Delimited rest) : Json.literal (literal.text ++ rest) = some (literal, rest) := by
  have afterExponent := wellFormed.afterExponent delimited
  have fraction := fraction_text wellFormed (fun point first => (afterExponent point first).1)
    fun first => (afterExponent _ first).2 rfl
  rw [Json.literal, wellFormed.sign rest]
  simp only [whole_text wellFormed (wellFormed.afterFraction delimited), Option.bind_eq_bind,
    Option.bind_some, fraction, exponent_text wellFormed delimited.stop]

theorem not_opening {point : CodePoint} (digit : isDigit point) : point ∉ openings := by
  intro listed
  simp only [openings, blanks, quote, List.cons_append, List.nil_append, List.mem_cons,
    List.not_mem_nil, or_false] at listed
  rcases listed with rfl | rfl | rfl | rfl | rfl | rfl | rfl | rfl <;> exact absurd digit (by decide)

theorem scalar_literal (dialect : Dialect G) {literal : Literal} (wellFormed : literal.WellFormed) :
    Scalar dialect literal.text
      (some (if literal.fraction = [] ∧ literal.exponent = [] then .int literal.integer
        else .float (dialect.float literal))) where
  opening := by
    obtain ⟨point, more, same, digit⟩ := wellFormed.digit
    rw [Literal.text, same]
    cases literal.negative with
    | true => exact ⟨_, _, rfl, by decide⟩
    | false => exact ⟨_, _, rfl, not_opening digit⟩
  read := by
    intro rest delimited
    rw [scalar, number, literal_text wellFormed delimited]
    simp only [Option.map_some, Option.some_or]
    split <;> rfl

/-! Integers. -/

theorem isDigit_toDigits (number : Nat) : ∀ point ∈ (Nat.toDigits 10 number).map .char, isDigit point := by
  intro point found
  obtain ⟨symbol, listed, rfl⟩ := List.mem_map.mp found
  exact Nat.isDigit_of_mem_toDigits (by decide) (by decide) listed

/-- A number other than zero is written without a leading zero. -/
theorem toDigits_head {number : Nat} (positive : 0 < number) :
    (Nat.toDigits 10 number).head? ≠ some '0' := by
  induction number using Nat.strongRecOn with
  | ind number ih =>
    by_cases small : number < 10
    · rw [Nat.toDigits_of_lt_base small]
      intro zero
      have same : number.digitChar = '0' := Option.some.inj zero
      revert same
      interval_cases number <;> decide
    · rw [Nat.toDigits_of_base_le (by decide) (by omega),
        List.head?_append_of_ne_nil _ Nat.toDigits_ne_nil]
      exact ih (number / 10) (by omega) (by omega)

theorem toDigits_whole (number : Nat) :
    (Nat.toDigits 10 number).map .char = str "0" ∨
      ((Nat.toDigits 10 number).map .char ≠ ([] : Str) ∧
        ((Nat.toDigits 10 number).map .char).head? ≠ some (CodePoint.char '0') ∧
        ∀ point ∈ (Nat.toDigits 10 number).map .char, isDigit point) := by
  by_cases zero : number = 0
  · exact .inl (by rw [zero]; rfl)
  · refine .inr ⟨by simp [Nat.toDigits_ne_nil], ?_, isDigit_toDigits number⟩
    rw [List.head?_map]
    intro leading
    obtain ⟨symbol, first, same⟩ := Option.map_eq_some_iff.mp leading
    cases same
    exact toDigits_head (Nat.pos_of_ne_zero zero) first

/-- The parts of an integer. -/
def Literal.ofInt (number : Int) : Literal :=
  ⟨decide (number < 0), (Nat.toDigits 10 number.natAbs).map .char, [], []⟩

theorem Literal.ofInt_wellFormed (number : Int) : (Literal.ofInt number).WellFormed where
  whole := toDigits_whole number.natAbs
  fraction := by simp [ofInt]
  exponent := .inl rfl

theorem Literal.ofInt_text (number : Int) : (Literal.ofInt number).text = decimal number := by
  cases number with
  | ofNat value => simp [Literal.text, ofInt, decimal]
  | negSucc value => simp [Literal.text, ofInt, decimal]

theorem natural_toDigits (number : Nat) : natural ((Nat.toDigits 10 number).map .char) = number := by
  rw [natural, Str.symbols_map_char, Option.getD_some, Nat.ofDigitChars_ten_toDigits]

theorem Literal.ofInt_integer (number : Int) : (Literal.ofInt number).integer = number := by
  rw [integer, show natural (ofInt number).whole = _ from natural_toDigits number.natAbs]
  simp only [ofInt, decide_eq_true_eq]
  split <;> omega

theorem scalar_decimal (dialect : Dialect G) (number : Int) :
    Scalar dialect (decimal number) (some (.int number)) := by
  have read := scalar_literal dialect (Literal.ofInt_wellFormed number)
  rwa [Literal.ofInt_text, if_pos ⟨rfl, rfl⟩, Literal.ofInt_integer] at read

/-! Values. -/

/-- A layout whose texts are read with this dialect: an integer as what `int` says of it and a float
as what `float` does, as far as it is one of those in question. -/
structure Layout.Readable (layout : Layout F) (dialect : Dialect G) (int : Int → Value G)
    (float : F → Option (Value G)) (Covered : F → Prop) : Prop where
  itemSeparator : layout.itemSeparator = str ","
  keySeparator : layout.keySeparator = str ":"
  escape : layout.escape = escapeRaw
  int : ∀ value, Scalar dialect (layout.int value) (some (int value))
  float : ∀ value, Covered value → Scalar dialect (layout.float value) (float value)

section

variable {layout : Layout F} {dialect : Dialect G} {int : Int → Value G} {float : F → Option (Value G)}
  {Covered : F → Prop}

/-- A text that is read as one value whatever comes after it, or as nothing. -/
structure Reads (dialect : Dialect G) (text : Str) (found : Option (Value G)) : Prop where
  opening : ∃ point more, text = point :: more ∧ point ∉ blanks ∧ point ≠ .char ']'
  read : ∀ fuel rest, Delimited rest → 2 * (text ++ rest).length + 1 ≤ fuel →
    value dialect fuel (text ++ rest) = found.map fun value => (value, rest)

theorem Scalar.reads {text : Str} {found : Option (Value G)} (scalar : Scalar dialect text found) :
    Reads dialect text found where
  opening := by
    obtain ⟨point, more, same, plain⟩ := scalar.opening
    refine ⟨point, more, same, fun blank => plain ?_, fun closes => plain ?_⟩
    · exact List.mem_append_left _ blank
    · exact closes ▸ by decide
  read := by
    intro fuel rest delimited enough
    obtain ⟨fuel, rfl⟩ : ∃ less, fuel = less + 1 := ⟨fuel - 1, by omega⟩
    exact value_scalar scalar fuel delimited

theorem value_string (fuel : Nat) (rest : Str) :
    value dialect (fuel + 1) (quote :: rest) =
      (string rest).map fun found => (.str found.1, found.2) := rfl

theorem value_list (fuel : Nat) (rest : Str) :
    value dialect (fuel + 1) (.char '[' :: rest) =
      match expect ']' (skip rest) with
      | some rest => some (.list [], rest)
      | none => (items dialect fuel rest).map fun found => (.list found.1, found.2) := rfl

theorem value_dict (fuel : Nat) (rest : Str) :
    value dialect (fuel + 1) (.char '{' :: rest) =
      match expect '}' (skip rest) with
      | some rest => some (.dict [], rest)
      | none =>
        (members dialect fuel rest).map fun found => (.dict (Dict.ofPairs found.1), found.2) := rfl

theorem string_form (readable : layout.Readable dialect int float Covered) (text rest : Str) :
    layout.string text ++ rest = quote :: (text.flatMap escapeRaw ++ quote :: rest) := by
  rw [Layout.string, readable.escape]
  simp

theorem string_reads (readable : layout.Readable dialect int float Covered) (text : Str) :
    Reads dialect (layout.string text) (some (.str text)) where
  opening := ⟨quote, _, rfl, by decide⟩
  read := by
    intro fuel rest delimited enough
    obtain ⟨fuel, rfl⟩ : ∃ less, fuel = less + 1 := ⟨fuel - 1, by omega⟩
    rw [string_form readable, value_string, string_escapeRaw]
    rfl

theorem Delimited.cons {point : CodePoint} (closes : point ∈ [.char ',', .char ']', .char '}'])
    (rest : Str) : Delimited (point :: rest) :=
  fun _ first => Option.some.inj first ▸ closes

theorem intercalate_pair (separator first second : Str) (more : List Str) :
    separator.intercalate (first :: second :: more) =
      first ++ separator ++ separator.intercalate (second :: more) := by
  simp [List.intercalate]

section

variable {α : Type} {text : α → Str} {found : α → Option (Value G)}

/-- The induction is over the items, of which there is one at least. -/
theorem items_read {first : α} {more : List α}
    (reads : ∀ item ∈ first :: more, Reads dialect (text item) (found item)) {fuel : Nat} {rest : Str}
    (enough : 2 * ((str ",").intercalate ((first :: more).map text) ++ .char ']' :: rest).length + 2 ≤ fuel) :
    items dialect fuel ((str ",").intercalate ((first :: more).map text) ++ .char ']' :: rest) =
      ((first :: more).mapM found).map fun items => (items, rest) := by
  induction more generalizing first fuel with
  | nil =>
    obtain ⟨fuel, rfl⟩ : ∃ less, fuel = less + 1 := ⟨fuel - 1, by omega⟩
    have form : (str ",").intercalate ([first].map text) = text first := by simp [List.intercalate]
    rw [form] at enough ⊢
    have head := (reads first List.mem_cons_self).read fuel (.char ']' :: rest)
      (.cons (by decide) rest) (by omega)
    rw [items, head, List.mapM_cons, List.mapM_nil]
    cases found first <;> rfl
  | cons second more ih =>
    obtain ⟨fuel, rfl⟩ : ∃ less, fuel = less + 1 := ⟨fuel - 1, by omega⟩
    have form : (str ",").intercalate ((first :: second :: more).map text) ++ .char ']' :: rest =
        text first ++ (.char ',' ::
          ((str ",").intercalate ((second :: more).map text) ++ .char ']' :: rest)) := by
      rw [List.map_cons, List.map_cons, intercalate_pair]
      simp [str]
    rw [form] at enough ⊢
    have delimited : Delimited (.char ',' ::
        ((str ",").intercalate ((second :: more).map text) ++ .char ']' :: rest)) :=
      .cons (by decide) _
    have head := (reads first List.mem_cons_self).read fuel _ delimited (by omega)
    have room : 2 * ((str ",").intercalate ((second :: more).map text) ++ .char ']' :: rest).length +
        2 ≤ fuel := by
      simp only [List.length_append, List.length_cons] at enough ⊢
      omega
    have tail := ih (fun item listed => reads item (List.mem_cons_of_mem _ listed)) room
    rw [items, head, List.mapM_cons]
    cases found first with
    | none => rfl
    | some item =>
      have next : expect ',' (skip (.char ',' ::
          ((str ",").intercalate ((second :: more).map text) ++ .char ']' :: rest))) =
          some ((str ",").intercalate ((second :: more).map text) ++ .char ']' :: rest) := rfl
      simp only [Option.map_some, Option.bind_eq_bind, Option.bind_some, next, tail]
      cases (second :: more).mapM found <;> rfl

end

section

variable {α : Type} {text : α → Str} {found : α → Option (Value G)}

/-- The text of a member of an object. -/
def memberText (text : α → Str) (member : Str × α) : Str :=
  quote :: member.1.flatMap escapeRaw ++ [quote] ++ .char ':' :: text member.2

theorem member_read {member : Str × α} (reads : Reads dialect (text member.2) (found member.2))
    {fuel : Nat} {rest : Str} (delimited : Delimited rest)
    (enough : 2 * (memberText text member ++ rest).length ≤ fuel) :
    members dialect (fuel + 1) (memberText text member ++ rest) =
      (found member.2).bind fun value =>
        match expect ',' (skip rest) with
        | some rest =>
          (members dialect fuel rest).map fun more => ((member.1, value) :: more.1, more.2)
        | none => (expect '}' (skip rest)).map fun rest => ([(member.1, value)], rest) := by
  have form : memberText text member ++ rest =
      quote :: (member.1.flatMap escapeRaw ++ quote :: (.char ':' :: (text member.2 ++ rest))) := by
    simp [memberText]
  have opens (rest : Str) : expect '"' (skip (quote :: rest)) = some rest := rfl
  have colon (rest : Str) : expect ':' (skip (.char ':' :: rest)) = some rest := rfl
  have read := reads.read fuel rest delimited (by
    rw [form] at enough
    simp only [List.length_append, List.length_cons] at enough ⊢
    omega)
  rw [form, members]
  simp only [opens, string_escapeRaw, colon, read, Option.bind_eq_bind, Option.bind_some]
  cases found member.2 <;> rfl

/-- The induction is over the members, of which there is one at least. -/
theorem members_read {first : Str × α} {more : Dict α}
    (reads : ∀ member ∈ first :: more, Reads dialect (text member.2) (found member.2)) {fuel : Nat}
    {rest : Str}
    (enough : 2 * ((str ",").intercalate ((first :: more).map (memberText text)) ++
      .char '}' :: rest).length + 2 ≤ fuel) :
    members dialect fuel ((str ",").intercalate ((first :: more).map (memberText text)) ++
        .char '}' :: rest) =
      (Dict.convert found (first :: more)).map fun members => (members, rest) := by
  induction more generalizing first fuel with
  | nil =>
    obtain ⟨fuel, rfl⟩ : ∃ less, fuel = less + 1 := ⟨fuel - 1, by omega⟩
    have form : (str ",").intercalate ([first].map (memberText text)) = memberText text first := by
      simp [List.intercalate]
    rw [form] at enough ⊢
    rw [member_read (reads first List.mem_cons_self) (.cons (by decide) rest) (by omega),
      Dict.convert_cons]
    cases found first.2 <;> rfl
  | cons second more ih =>
    obtain ⟨fuel, rfl⟩ : ∃ less, fuel = less + 1 := ⟨fuel - 1, by omega⟩
    have form : (str ",").intercalate ((first :: second :: more).map (memberText text)) ++
        .char '}' :: rest =
        memberText text first ++ (.char ',' ::
          ((str ",").intercalate ((second :: more).map (memberText text)) ++ .char '}' :: rest)) := by
      rw [List.map_cons, List.map_cons, intercalate_pair]
      simp [str]
    rw [form] at enough ⊢
    have room : 2 * ((str ",").intercalate ((second :: more).map (memberText text)) ++
        .char '}' :: rest).length + 2 ≤ fuel := by
      simp only [List.length_append, List.length_cons] at enough ⊢
      omega
    have tail := ih (fun item listed => reads item (List.mem_cons_of_mem _ listed)) room
    have delimited : Delimited (.char ',' ::
        ((str ",").intercalate ((second :: more).map (memberText text)) ++ .char '}' :: rest)) :=
      .cons (by decide) _
    rw [member_read (reads first List.mem_cons_self) delimited (by omega),
      Dict.convert_cons]
    cases found first.2 with
    | none => rfl
    | some item =>
      have next : expect ',' (skip (.char ',' ::
          ((str ",").intercalate ((second :: more).map (memberText text)) ++ .char '}' :: rest))) =
          some ((str ",").intercalate ((second :: more).map (memberText text)) ++
            .char '}' :: rest) := rfl
      simp only [Option.bind_some, next, tail]
      cases Dict.convert found (second :: more) <;> rfl

end

theorem intercalate_cons (separator first : Str) (more : List Str) :
    ∃ tail, separator.intercalate (first :: more) = first ++ tail := by
  cases more with
  | nil => exact ⟨[], by simp [List.intercalate]⟩
  | cons second more => exact ⟨_, (intercalate_pair separator first second more).trans (List.append_assoc ..)⟩

theorem write_list_reads {items : List (Value F)}
    (reads : ∀ item ∈ items, Reads dialect (layout.write item)
      ((arranged layout.order item).convert int float))
    (readable : layout.Readable dialect int float Covered) :
    Reads dialect (layout.write (.list items))
      ((arranged layout.order (.list items)).convert int float) where
  opening := ⟨_, _, rfl, by decide⟩
  read := by
    intro fuel rest delimited enough
    obtain ⟨fuel, rfl⟩ : ∃ less, fuel = less + 1 := ⟨fuel - 1, by omega⟩
    have form : layout.write (.list items) ++ rest = .char '[' ::
        ((str ",").intercalate (items.map layout.write) ++ .char ']' :: rest) := by
      rw [Layout.write, Layout.writeItems_eq, readable.itemSeparator]
      simp
    rw [form] at enough ⊢
    rw [value_list, arranged_list, Value.convert, Value.convertItems_eq, List.mapM_map]
    cases items with
    | nil => rfl
    | cons first more =>
      obtain ⟨tail, split⟩ := intercalate_cons (str ",") (layout.write first) (more.map layout.write)
      obtain ⟨point, front, same, visible, other⟩ := (reads first List.mem_cons_self).opening
      have opens : expect ']' (skip ((str ",").intercalate ((first :: more).map layout.write) ++
          .char ']' :: rest)) = none := by
        rw [List.map_cons, split, same, List.cons_append, List.cons_append, skip_cons visible]
        exact if_neg other
      have room : 2 * ((str ",").intercalate ((first :: more).map layout.write) ++
          .char ']' :: rest).length + 2 ≤ fuel := by
        simp only [List.length_cons] at enough ⊢
        omega
      have inner := items_read reads room
      simp only [opens, inner, Option.map_map]
      rfl

theorem member_form (readable : layout.Readable dialect int float Covered)
    (member : Str × Value F) :
    layout.member (member.1, layout.write member.2) = memberText layout.write member := by
  rw [Layout.member, Layout.string, readable.escape, readable.keySeparator, memberText]
  simp [str]

theorem write_dict_reads {members : Dict (Value F)}
    (reads : ∀ member ∈ members, Reads dialect (layout.write member.2)
      ((arranged layout.order member.2).convert int float))
    (distinct : (Dict.keys members).Nodup) (readable : layout.Readable dialect int float Covered) :
    Reads dialect (layout.write (.dict members))
      ((arranged layout.order (.dict members)).convert int float) where
  opening := ⟨_, _, rfl, by decide⟩
  read := by
    intro fuel rest delimited enough
    obtain ⟨fuel, rfl⟩ : ∃ less, fuel = less + 1 := ⟨fuel - 1, by omega⟩
    have form : layout.write (.dict members) ++ rest = .char '{' ::
        ((str ",").intercalate ((arrange layout.order members).map (memberText layout.write)) ++
          .char '}' :: rest) := by
      rw [Layout.write, Layout.writeMembers_eq, readable.itemSeparator, arrange_map, List.map_map]
      simp [Function.comp_def, member_form readable]
    have inOrder : (Dict.keys (arrange layout.order members)).Nodup :=
      ((arrange_perm layout.order members).map _).nodup_iff.mpr distinct
    have reads : ∀ member ∈ arrange layout.order members, Reads dialect (layout.write member.2)
        ((arranged layout.order member.2).convert int float) :=
      fun member listed => reads member ((arrange_perm _ members).mem_iff.mp listed)
    rw [form] at enough ⊢
    rw [value_dict, arranged_dict, Value.convert, Value.convertMembers_eq, Dict.convert_map]
    cases listed : arrange layout.order members with
    | nil => rfl
    | cons first more =>
      rw [listed] at enough inOrder reads
      obtain ⟨tail, split⟩ := intercalate_cons (str ",") (memberText layout.write first)
        (more.map (memberText layout.write))
      have opens : expect '}' (skip ((str ",").intercalate
          ((first :: more).map (memberText layout.write)) ++ .char '}' :: rest)) = none := by
        rw [List.map_cons, split]
        rfl
      have room : 2 * ((str ",").intercalate ((first :: more).map (memberText layout.write)) ++
          .char '}' :: rest).length + 2 ≤ fuel := by
        simp only [List.length_cons] at enough ⊢
        omega
      have inner : Json.members dialect fuel ((str ",").intercalate
          ((first :: more).map (memberText layout.write)) ++ .char '}' :: rest) =
          (Dict.convert (fun value => (arranged layout.order value).convert int float)
            (first :: more)).map fun members => (members, rest) := members_read reads room
      simp only [opens, inner]
      cases converted : Dict.convert _ (first :: more) with
      | none => rfl
      | some found =>
        have same : Dict.ofPairs found = found :=
          Dict.ofPairs_distinct (Dict.keys_convert converted ▸ inOrder)
        rw [Option.map_some, Option.map_some, same]
        rfl

/-- What is written is read as the value with its members in order and its numbers replaced. -/
theorem write_reads (readable : layout.Readable dialect int float Covered) {value : Value F}
    (distinct : value.Distinct) (covered : ∀ number, .float number ∈ value.parts → Covered number) :
    Reads dialect (layout.write value) ((arranged layout.order value).convert int float) := by
  induction value with
  | none => exact (scalar_null dialect).reads
  | bool held =>
    cases held with
    | true => exact (scalar_bool dialect true).reads
    | false => exact (scalar_bool dialect false).reads
  | int number => exact (readable.int number).reads
  | float number => exact (readable.float number (covered number (Value.self_mem_parts _))).reads
  | str text => exact string_reads readable text
  | list items ih =>
    apply write_list_reads _ readable
    intro item listed
    exact ih item listed (distinct.item listed) fun number part =>
      covered number (Value.mem_parts_list.mpr (.inr ⟨item, listed, part⟩))
  | dict members ih =>
    apply write_dict_reads _ distinct.keys readable
    intro member listed
    exact ih member listed (distinct.member listed) fun number part =>
      covered number (Value.mem_parts_dict.mpr (.inr ⟨member, listed, part⟩))

/-- A whole text that was written is read as what it was written for. -/
theorem read_write (readable : layout.Readable dialect int float Covered) {value : Value F}
    (distinct : value.Distinct) (covered : ∀ number, .float number ∈ value.parts → Covered number) :
    read dialect (layout.write value) = (arranged layout.order value).convert int float := by
  have whole := (write_reads readable distinct covered).read
    (2 * (layout.write value).length + 1) [] (fun _ first => absurd first (by simp)) (by simp)
  rw [List.append_nil] at whole
  rw [read, whole]
  cases (arranged layout.order value).convert int float <;> rfl

end

/-! The compact layout of Python. -/

theorem canonical_readable [Interpreter F] (dialect : Dialect G) (float : F → Option (Value G)) :
    (canonical : Layout F).Readable dialect .int float fun _ => False where
  itemSeparator := rfl
  keySeparator := rfl
  escape := rfl
  int := scalar_decimal dialect
  float := fun _ none => none.elim

theorem read_canonical [Interpreter F] (dialect : Dialect F) {value : Value F}
    (distinct : value.Distinct) (floatless : value.Floatless) :
    read dialect (canonical.write value) = some (arranged (some Str.codes) value) := by
  rw [read_write (canonical_readable dialect fun number => some (.float number)) distinct floatless,
    Value.convert_self]
  rfl

/-- The compact text of a value without floats is the same for equal values and for no others. -/
theorem canonical_write_eq [Interpreter F] (dialect : Dialect F) {value other : Value F}
    (distinct : value.Distinct) (floatless : value.Floatless) (also : other.Distinct)
    (withoutFloats : other.Floatless) :
    canonical.write value = canonical.write other ↔ Same value other := by
  rw [same_iff_arranged Str.codes_injective distinct also]
  constructor
  · intro same
    have first := read_canonical dialect distinct floatless
    have second := read_canonical dialect also withoutFloats
    rw [same, second] at first
    exact (Option.some.inj first).symm
  · intro same
    have first := canonical.write_arranged value
    have second := canonical.write_arranged other
    exact first.symm.trans ((congrArg canonical.write same).trans second)

end ImmutableLedger.Json
