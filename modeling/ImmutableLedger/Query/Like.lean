import Mathlib.Data.List.Infix

/-! Patterns of LIKE, and what becomes of a text that is taken for one.

A text is meant to stand for itself when a percent sign is put behind it. It does so if it has no
symbol with a meaning of its own; otherwise the shortest text it matches does not begin with it.
-/

set_option autoImplicit false

namespace ImmutableLedger

/-- `text LIKE pattern`, where a backslash takes a symbol literally. -/
def like : List Char → List Char → Bool
  | [], text => text.isEmpty
  | '%' :: pattern, text => text.tails.any (like pattern)
  | '_' :: pattern, text => match text with
    | [] => false
    | _ :: rest => like pattern rest
  | '\\' :: symbol :: pattern, text => match text with
    | [] => false
    | first :: rest => decide (first = symbol) && like pattern rest
  | symbol :: pattern, text => match text with
    | [] => false
    | first :: rest => decide (first = symbol) && like pattern rest

namespace Query

/-- A symbol that LIKE does not take for itself. -/
def Special (symbol : Char) : Prop := symbol = '%' ∨ symbol = '_' ∨ symbol = '\\'

instance (symbol : Char) : Decidable (Special symbol) := inferInstanceAs (Decidable (_ ∨ _))

/-- The shortest text that matches a text with a percent sign behind it. -/
def shortestMatch : List Char → List Char
  | [] => []
  | '%' :: text => shortestMatch text
  | '_' :: text => 'a' :: shortestMatch text
  | ['\\'] => ['%']
  | '\\' :: symbol :: text => symbol :: shortestMatch text
  | symbol :: text => symbol :: shortestMatch text

theorem like_nil (text : List Char) : like [] text = text.isEmpty := by
  cases text <;> rfl

theorem like_percent (pattern text : List Char) :
    like ('%' :: pattern) text = text.tails.any (like pattern) := rfl

theorem like_underscore (pattern rest : List Char) (first : Char) :
    like ('_' :: pattern) (first :: rest) = like pattern rest := rfl

theorem like_escaped (pattern rest : List Char) (symbol first : Char) :
    like ('\\' :: symbol :: pattern) (first :: rest) =
      (decide (first = symbol) && like pattern rest) := rfl

theorem like_symbol {symbol : Char} (plain : ¬Special symbol) (pattern rest : List Char)
    (first : Char) :
    like (symbol :: pattern) (first :: rest) = (decide (first = symbol) && like pattern rest) := by
  simp only [Special, not_or] at plain
  rw [like]
  · exact plain.1
  · exact plain.2.1
  · intro other _ backslash
    exact absurd backslash plain.2.2

theorem like_symbol_nil {symbol : Char} (plain : ¬Special symbol) (pattern : List Char) :
    like (symbol :: pattern) [] = false := by
  simp only [Special, not_or] at plain
  rw [like]
  · exact plain.1
  · exact plain.2.1
  · intro other _ backslash
    exact absurd backslash plain.2.2

theorem shortestMatch_percent (text : List Char) :
    shortestMatch ('%' :: text) = shortestMatch text := rfl

theorem shortestMatch_underscore (text : List Char) :
    shortestMatch ('_' :: text) = 'a' :: shortestMatch text := rfl

theorem shortestMatch_escaped (symbol : Char) (text : List Char) :
    shortestMatch ('\\' :: symbol :: text) = symbol :: shortestMatch text := rfl

theorem shortestMatch_symbol {symbol : Char} (plain : ¬Special symbol) (text : List Char) :
    shortestMatch (symbol :: text) = symbol :: shortestMatch text := by
  simp only [Special, not_or] at plain
  rw [shortestMatch]
  · exact plain.1
  · exact plain.2.1
  · exact fun backslash => absurd backslash plain.2.2
  · exact fun other _ backslash => absurd backslash plain.2.2

/-- A backslash is either the last symbol or stands before another one. -/
theorem not_special {symbol : Char} {text : List Char} (percent : symbol = '%' → False)
    (underscore : symbol = '_' → False) (alone : symbol = '\\' → text = [] → False)
    (escapes : ∀ other rest, symbol = '\\' → text = other :: rest → False) : ¬Special symbol := by
  rintro (same | same | backslash)
  · exact percent same
  · exact underscore same
  · cases text with
    | nil => exact alone backslash rfl
    | cons other rest => exact escapes other rest backslash rfl

/-- A percent sign alone matches everything. -/
theorem like_anything (text : List Char) : like ['%'] text = true := by
  rw [like_percent]
  exact List.any_eq_true.mpr ⟨[], (List.mem_tails _ _).mpr (List.nil_suffix), rfl⟩

/-- Without special symbols, a text with a percent sign behind it matches what begins with it. -/
theorem like_plain {text : List Char} (plain : ∀ symbol ∈ text, ¬Special symbol) (whole : List Char) :
    like (text ++ ['%']) whole = text.isPrefixOf whole := by
  induction text generalizing whole with
  | nil =>
    rw [List.nil_append, like_anything]
    rfl
  | cons symbol text ih =>
    obtain ⟨here, onward⟩ := List.forall_mem_cons.mp plain
    cases whole with
    | nil =>
      rw [List.cons_append, like_symbol_nil here]
      rfl
    | cons first rest =>
      rw [List.cons_append, like_symbol here, ih onward, List.isPrefixOf]
      congr 1
      exact decide_eq_decide.mpr eq_comm

/-- The shortest match is a match. -/
theorem like_shortestMatch (text : List Char) : like (text ++ ['%']) (shortestMatch text) = true := by
  induction text using shortestMatch.induct with
  | case1 => exact like_anything []
  | case2 text ih =>
    rw [List.cons_append, like_percent, shortestMatch_percent]
    exact List.any_eq_true.mpr ⟨_, (List.mem_tails _ _).mpr (List.suffix_refl _), ih⟩
  | case3 text ih =>
    rw [List.cons_append, shortestMatch_underscore, like_underscore]
    exact ih
  | case4 => decide
  | case5 symbol text ih =>
    rw [List.cons_append, List.cons_append, shortestMatch_escaped, like_escaped, decide_eq_true rfl]
    exact ih
  | case6 symbol text percent underscore alone escapes ih =>
    have plain := not_special percent underscore alone escapes
    rw [List.cons_append, shortestMatch_symbol plain, like_symbol plain, decide_eq_true rfl]
    exact ih

/-- No match is shorter. -/
theorem length_shortestMatch_le {text whole : List Char} (matched : like (text ++ ['%']) whole = true) :
    (shortestMatch text).length ≤ whole.length := by
  induction text using shortestMatch.induct generalizing whole with
  | case1 => exact Nat.zero_le _
  | case2 text ih =>
    rw [List.cons_append, like_percent] at matched
    obtain ⟨rest, isTail, rest_matched⟩ := List.any_eq_true.mp matched
    rw [shortestMatch_percent]
    exact (ih rest_matched).trans ((List.mem_tails _ _).mp isTail).length_le
  | case3 text ih =>
    cases whole with
    | nil => cases matched
    | cons first rest =>
      rw [List.cons_append, like_underscore] at matched
      rw [shortestMatch_underscore]
      exact Nat.succ_le_succ (ih matched)
  | case4 =>
    cases whole with
    | nil => cases matched
    | cons first rest => exact Nat.succ_le_succ (Nat.zero_le _)
  | case5 symbol text ih =>
    cases whole with
    | nil => cases matched
    | cons first rest =>
      rw [List.cons_append, List.cons_append, like_escaped, Bool.and_eq_true] at matched
      rw [shortestMatch_escaped]
      exact Nat.succ_le_succ (ih matched.2)
  | case6 symbol text percent underscore alone escapes ih =>
    have plain := not_special percent underscore alone escapes
    cases whole with
    | nil =>
      rw [List.cons_append, like_symbol_nil plain] at matched
      cases matched
    | cons first rest =>
      rw [List.cons_append, like_symbol plain, Bool.and_eq_true] at matched
      rw [shortestMatch_symbol plain]
      exact Nat.succ_le_succ (ih matched.2)

theorem length_shortestMatch (text : List Char) : (shortestMatch text).length ≤ text.length := by
  induction text using shortestMatch.induct with
  | case1 => exact Nat.zero_le _
  | case2 text ih =>
    rw [shortestMatch_percent]
    exact Nat.le_succ_of_le ih
  | case3 text ih =>
    rw [shortestMatch_underscore]
    exact Nat.succ_le_succ ih
  | case4 => exact Nat.le_refl _
  | case5 symbol text ih =>
    rw [shortestMatch_escaped]
    exact Nat.le_succ_of_le (Nat.succ_le_succ ih)
  | case6 symbol text percent underscore alone escapes ih =>
    rw [shortestMatch_symbol (not_special percent underscore alone escapes)]
    exact Nat.succ_le_succ ih

/-- A text with a special symbol is not where its shortest match begins. -/
theorem plain_of_begins {text : List Char} (begins : text <+: shortestMatch text) :
    ∀ symbol ∈ text, ¬Special symbol := by
  induction text using shortestMatch.induct with
  | case1 => exact fun symbol member => absurd member List.not_mem_nil
  | case2 text ih =>
    -- The percent sign takes no place in the match.
    rw [shortestMatch_percent] at begins
    have long := begins.length_le
    have short := length_shortestMatch text
    rw [List.length_cons] at long
    omega
  | case3 text ih =>
    rw [shortestMatch_underscore] at begins
    exact absurd (List.cons_prefix_cons.mp begins).1 (by decide)
  | case4 => exact absurd (List.cons_prefix_cons.mp begins).1 (by decide)
  | case5 symbol text ih =>
    -- Nor does the backslash.
    rw [shortestMatch_escaped] at begins
    have long := begins.length_le
    have short := length_shortestMatch text
    simp only [List.length_cons] at long
    omega
  | case6 symbol text percent underscore alone escapes ih =>
    have plain := not_special percent underscore alone escapes
    rw [shortestMatch_symbol plain] at begins
    exact List.forall_mem_cons.mpr ⟨plain, ih (List.cons_prefix_cons.mp begins).2⟩

/-- A match has the symbols of the pattern, or two others. -/
theorem mem_shortestMatch {text : List Char} {symbol : Char} (member : symbol ∈ shortestMatch text) :
    symbol ∈ text ∨ symbol = 'a' ∨ symbol = '%' := by
  induction text using shortestMatch.induct with
  | case1 => exact .inl member
  | case2 text ih =>
    rw [shortestMatch_percent] at member
    exact (ih member).imp_left (List.mem_cons_of_mem _)
  | case3 text ih =>
    rw [shortestMatch_underscore] at member
    rcases List.mem_cons.mp member with rfl | later
    · exact .inr (.inl rfl)
    · exact (ih later).imp_left (List.mem_cons_of_mem _)
  | case4 => exact .inr (.inr (List.mem_singleton.mp member))
  | case5 other text ih =>
    rw [shortestMatch_escaped] at member
    rcases List.mem_cons.mp member with rfl | later
    · exact .inl (by simp)
    · exact (ih later).imp_left fun found => by simp [found]
  | case6 other text percent underscore alone escapes ih =>
    rw [shortestMatch_symbol (not_special percent underscore alone escapes)] at member
    rcases List.mem_cons.mp member with rfl | later
    · exact .inl List.mem_cons_self
    · exact (ih later).imp_left (List.mem_cons_of_mem _)

end Query

end ImmutableLedger
