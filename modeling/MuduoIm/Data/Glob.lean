import Mathlib.Data.List.Infix

namespace MuduoIm.Data.Glob

/-! # Glob patterns

The patterns of the KEYS command: `*`, `?`, bracket classes with ranges and
negation, and the backslash that takes the next character literally.
-/

inductive Piece where
  | char (expected : Char)
  | any
  | star
  | oneOf (negated : Bool) (ranges : List (Char × Char))
deriving DecidableEq, Repr

/-- The pieces of a pattern; the first argument is the class that is open. -/
def pieces : Option (Bool × List (Char × Char)) → List Char → List Piece
  | none, [] => []
  | none, '*' :: rest => .star :: pieces none rest
  | none, '?' :: rest => .any :: pieces none rest
  | none, '\\' :: escaped :: rest => .char escaped :: pieces none rest
  | none, '[' :: '^' :: rest => pieces (some (true, [])) rest
  | none, '[' :: rest => pieces (some (false, [])) rest
  | none, plain :: rest => .char plain :: pieces none rest
  -- a class that is never closed ends with the pattern
  | some (negated, ranges), [] => [.oneOf negated ranges]
  | some (negated, ranges), '\\' :: escaped :: rest =>
      pieces (some (negated, (escaped, escaped) :: ranges)) rest
  | some (negated, ranges), ']' :: rest => .oneOf negated ranges :: pieces none rest
  | some (negated, ranges), first :: '-' :: last :: rest =>
      pieces (some (negated, (first, last) :: ranges)) rest
  | some (negated, ranges), plain :: rest => pieces (some (negated, (plain, plain) :: ranges)) rest

def inRange (c : Char) (range : Char × Char) : Bool :=
  (range.1 ≤ c && c ≤ range.2) || (range.2 ≤ c && c ≤ range.1)

def accepts : List Piece → List Char → Bool
  | [], text => text.isEmpty
  | .star :: rest, text => text.tails.any (accepts rest)
  | .any :: rest, _ :: text => accepts rest text
  | .char expected :: rest, c :: text => expected == c && accepts rest text
  | .oneOf negated ranges :: rest, c :: text =>
      (ranges.any (inRange c) != negated) && accepts rest text
  | _ :: _, [] => false

/-- The pattern matches the whole text. -/
def globMatch (pattern text : String) : Bool := accepts (pieces none pattern.toList) text.toList

/-- A character that stands for itself. -/
def Plain (c : Char) : Prop := c ≠ '*' ∧ c ≠ '?' ∧ c ≠ '[' ∧ c ≠ '\\'

instance : DecidablePred Plain := fun c => inferInstanceAs (Decidable (c ≠ '*' ∧ _))

variable {text rest tail : List Char} {pattern : List Piece}

theorem plain_of_all (checked : text.all (fun c => decide (Plain c)) = true) :
    ∀ c ∈ text, Plain c := by
  intro c member
  exact of_decide_eq_true (List.all_eq_true.mp checked c member)

theorem pieces_plain (plain : ∀ c ∈ text, Plain c) :
    pieces none (text ++ rest) = text.map Piece.char ++ pieces none rest := by
  induction text with
  | nil => rfl
  | cons c text ih =>
      obtain ⟨notStar, notAny, notClass, notEscape⟩ := plain c (by simp)
      have later := ih (fun other member => plain other (by simp [member]))
      simp [pieces, notClass, notEscape, later]

theorem accepts_chars :
    accepts (text.map Piece.char ++ pattern) tail = true ↔
      ∃ left, tail = text ++ left ∧ accepts pattern left = true := by
  induction text generalizing tail with
  | nil => simp
  | cons c text ih =>
      cases tail with
      | nil => simp [accepts]
      | cons other tail =>
          simp only [List.map_cons, List.cons_append, accepts, Bool.and_eq_true, beq_iff_eq, ih,
            List.cons.injEq]
          constructor
          · intro matched
            obtain ⟨rfl, left, rfl, accepted⟩ := matched
            exact ⟨left, ⟨rfl, rfl⟩, accepted⟩
          · intro matched
            obtain ⟨left, ⟨rfl, rfl⟩, accepted⟩ := matched
            exact ⟨rfl, left, rfl, accepted⟩

theorem accepts_star : accepts [Piece.star] tail = true := by
  have last : [] ∈ tail.tails := (List.mem_tails [] tail).mpr List.nil_suffix
  exact List.any_eq_true.mpr ⟨[], last, rfl⟩

/-- Plain characters with a star at the end match the texts that begin so. -/
theorem globMatch_append_star {stem key : String} (plain : ∀ c ∈ stem.toList, Plain c) :
    globMatch (stem ++ "*") key = true ↔ stem.toList <+: key.toList := by
  have split : pieces none (stem ++ "*").toList = stem.toList.map Piece.char ++ [Piece.star] := by
    rw [String.toList_append, pieces_plain plain]
    rfl
  rw [globMatch, split, accepts_chars]
  constructor
  · intro matched
    obtain ⟨left, same, _⟩ := matched
    exact ⟨left, same.symm⟩
  · intro begins
    obtain ⟨left, same⟩ := begins
    exact ⟨left, same.symm, accepts_star⟩

example : accepts (pieces none "h[^a-c]*o?".toList) "hello!".toList = true := by decide

end MuduoIm.Data.Glob
