import Mathlib.Data.List.TakeWhile

namespace MuduoIm.Data.FileName

/-! # The parts of a file name

A name is split at its last dot, and a path at its last slash.
-/

variable {stop : Char} {text before last : List Char}

/-- The text before the last `stop` and the text after it. -/
def splitLast (stop : Char) (text : List Char) : Option (List Char × List Char) :=
  match text.reverse.dropWhile (· ≠ stop) with
  | [] => none
  | _ :: before => some (before.reverse, (text.reverse.takeWhile (· ≠ stop)).reverse)

theorem passed_of_absent (absent : stop ∉ last) : ∀ char ∈ last.reverse, decide (char ≠ stop) = true := by
  intro char member
  rw [decide_eq_true_eq]
  intro same
  exact absent (same ▸ List.mem_reverse.mp member)

theorem splitLast_append (absent : stop ∉ last) : splitLast stop (before ++ stop :: last) = some (before, last) := by
  have passed := passed_of_absent absent
  have turned : (before ++ stop :: last).reverse = last.reverse ++ stop :: before.reverse := by simp
  rw [splitLast, turned, List.dropWhile_append_of_pos passed, List.takeWhile_append_of_pos passed]
  simp

/-- `os.path.splitext`; dots in front of a name are no extension. -/
def splitext (path : List Char) : List Char × List Char :=
  let (directory, name) := match splitLast '/' path with
    | some (directory, name) => (directory ++ ['/'], name)
    | none => ([], path)
  match splitLast '.' name with
  | some (stem, extension) => if stem.all (· = '.') then (path, []) else (directory ++ stem, '.' :: extension)
  | none => (path, [])

theorem splitext_append (directory : List Char) {stem extension : List Char} (noSlash : '/' ∉ stem ++ '.' :: extension)
    (noDot : '.' ∉ extension) (named : ∃ char ∈ stem, char ≠ '.') :
    splitext (directory ++ '/' :: (stem ++ '.' :: extension)) = (directory ++ '/' :: stem, '.' :: extension) := by
  have notAll : stem.all (· = '.') = false := by
    obtain ⟨char, member, other⟩ := named
    exact List.all_eq_false.mpr ⟨char, member, by simpa using other⟩
  rw [splitext, splitLast_append noSlash]
  dsimp only
  rw [splitLast_append noDot]
  dsimp only
  rw [notAll, List.append_assoc]
  rfl

end MuduoIm.Data.FileName
