/-!
White space in the sense of the `White_Space` property, and cutting it off both ends of a text.
-/

set_option autoImplicit false
set_option relaxedAutoImplicit false

namespace TextArchive.Text

/-- Whether a character has the `White_Space` property. -/
def isBlank (c : Char) : Bool :=
  let n := c.toNat
  (9 ≤ n && n ≤ 13) || n = 32 || n = 133 || n = 160 || n = 5760 || (8192 ≤ n && n ≤ 8202)
    || n = 8232 || n = 8233 || n = 8239 || n = 8287 || n = 12288

/-- A text without the blanks at its two ends. -/
def trim (cs : List Char) : List Char :=
  ((cs.dropWhile isBlank).reverse.dropWhile isBlank).reverse

theorem trim_append {blanks cs : List Char} (blank : ∀ c ∈ blanks, isBlank c = true)
    (plain : ∀ c ∈ cs, isBlank c = false) : trim (blanks ++ cs) = cs := by
  have kept : ∀ cs : List Char, (∀ c ∈ cs, isBlank c = false) → cs.dropWhile isBlank = cs := by
    intro cs plain
    cases cs with
    | nil => rfl
    | cons c cs => exact List.dropWhile_cons_of_neg (by simp [plain c List.mem_cons_self])
  have backwards := kept cs.reverse fun c member => plain c (List.mem_reverse.mp member)
  rw [trim, List.dropWhile_append_of_pos blank, kept cs plain, backwards, List.reverse_reverse]

def allBlank (cs : List Char) : Bool :=
  cs.all isBlank

end TextArchive.Text
