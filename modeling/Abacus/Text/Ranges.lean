/-!
# Character ranges

A set of characters is a list of closed ranges of code points in increasing order. `inRanges` looks
a code point up and stops at the first range above it.
-/

namespace Abacus.Text

/-- A closed range of code points, first and last. -/
abbrev CodeRange := Nat × Nat

/-- Whether `n` lies in one of the ranges, which stand in increasing order. -/
def inRanges (n : Nat) : List CodeRange → Bool
  | [] => false
  | (first, last) :: ranges => if n < first then false else n ≤ last || inRanges n ranges

/-- Only a code point of some range is found. -/
theorem mem_of_inRanges {n : Nat} {ranges : List CodeRange} (h : inRanges n ranges = true) :
    ∃ r ∈ ranges, r.1 ≤ n ∧ n ≤ r.2 := by
  induction ranges with
  | nil => simp [inRanges] at h
  | cons r ranges ih =>
    obtain ⟨first, last⟩ := r
    simp only [inRanges] at h
    split at h
    · simp at h
    · simp only [Bool.or_eq_true, decide_eq_true_eq] at h
      rcases h with h | h
      · exact ⟨(first, last), by simp, by omega, h⟩
      · obtain ⟨r, hr, hn⟩ := ih h
        exact ⟨r, by simp [hr], hn⟩

end Abacus.Text
