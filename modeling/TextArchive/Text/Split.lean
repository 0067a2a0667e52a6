/-!
Cutting a list of characters at separators. Main statement: joining the pieces of a cut at one
separator gives the text back.
-/

set_option autoImplicit false
set_option relaxedAutoImplicit false

namespace TextArchive.Text.Split

/-- The pieces between separators; there is always at least one. -/
def pieces {α : Type} (isSeparator : α → Bool) : List α → List (List α)
  | [] => [[]]
  | a :: r =>
    if isSeparator a then [] :: pieces isSeparator r
    else
      match pieces isSeparator r with
      | [] => [[a]]
      | p :: ps => (a :: p) :: ps

def words {α : Type} (isSeparator : α → Bool) (s : List α) : List (List α) :=
  (pieces isSeparator s).filter (!·.isEmpty)

theorem pieces_ne_nil {α : Type} (isSeparator : α → Bool) (s : List α) :
    pieces isSeparator s ≠ [] := by
  cases s with
  | nil => simp [pieces]
  | cons a r =>
    simp only [pieces]
    split
    · simp
    · split <;> simp

theorem intercalate_pieces {α : Type} [DecidableEq α] (x : α) (s : List α) :
    [x].intercalate (pieces (fun a => decide (a = x)) s) = s := by
  induction s with
  | nil => simp [pieces, List.intercalate]
  | cons a r ih =>
    rcases hp : pieces (fun a => decide (a = x)) r with _ | ⟨p, ps⟩
    · exact absurd hp (pieces_ne_nil _ r)
    · rw [hp] at ih
      by_cases h : a = x
      · subst h
        simp only [pieces, decide_true, if_true, hp]
        simp [List.intercalate, List.intersperse] at ih ⊢
        exact ih
      · simp only [pieces, decide_eq_true_eq, h, if_false, hp]
        cases ps with
        | nil => simpa [List.intercalate] using ih
        | cons q qs => simpa [List.intercalate, List.intersperse] using ih

section Pieces

variable {α : Type} {isSeparator : α → Bool}

theorem pieces_append_separator {a : α} (separates : isSeparator a = true) (before after : List α) :
    pieces isSeparator (before ++ a :: after) = pieces isSeparator before ++
    pieces isSeparator after := by
  induction before with
  | nil => simp [pieces, separates]
  | cons b before ih =>
    simp only [List.cons_append, pieces, ih]
    split
    · rfl
    · rcases start : pieces isSeparator before with _ | ⟨piece, pieces⟩
      · exact absurd start (pieces_ne_nil _ before)
      · rfl

theorem pieces_of_no_separator {xs : List α} (h : ∀ a ∈ xs, isSeparator a = false) :
    pieces isSeparator xs = [xs] := by
  induction xs with
  | nil => rfl
  | cons a xs ih =>
    simp [pieces, h a List.mem_cons_self, ih fun b member => h b (List.mem_cons_of_mem a member)]

theorem words_append_separator {a : α} (separates : isSeparator a = true) (before after : List α) :
    words isSeparator (before ++ a :: after) = words isSeparator before ++
    words isSeparator after := by
  simp [words, pieces_append_separator separates]

theorem words_of_no_separator {xs : List α} (h : ∀ a ∈ xs, isSeparator a = false)
    (filled : xs ≠ []) :
    words isSeparator xs = [xs] := by
  simp [words, pieces_of_no_separator h, filled]

end Pieces

end TextArchive.Text.Split
