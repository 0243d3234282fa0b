import Mathlib.Data.List.Basic

/-! # Consecutively numbered lists

Lists whose entries carry consecutive numbers, as a log keeps them: reading behind a number is
dropping a known count of entries, and a number is present iff it lies in the range of the list. -/

namespace Numbered

variable {α : Type} {key : α → Nat} {n : Nat} {l l' : List α}

/-- The entries are numbered from `n` on. -/
def Consecutive (key : α → Nat) : Nat → List α → Prop
  | _, [] => True
  | n, a :: l => key a = n ∧ Consecutive key (n + 1) l

theorem consecutive_append :
    Consecutive key n (l ++ l') ↔ Consecutive key n l ∧ Consecutive key (n + l.length) l' := by
  induction l generalizing n with
  | nil => simp [Consecutive]
  | cons a l ih =>
    have hshift : n + 1 + l.length = n + (l.length + 1) := by omega
    rw [List.cons_append, Consecutive, ih, Consecutive, List.length_cons, hshift, and_assoc]

/-- The numbers of the list. -/
theorem Consecutive.map_eq (h : Consecutive key n l) : l.map key = List.range' n l.length := by
  induction l generalizing n with
  | nil => rfl
  | cons a l ih => rw [List.map_cons, h.1, ih h.2, List.length_cons, List.range'_succ]

theorem Consecutive.exists_key (h : Consecutive key n l) (m : Nat) :
    (∃ a ∈ l, key a = m) ↔ n ≤ m ∧ m < n + l.length := by
  rw [← List.mem_map, h.map_eq, List.mem_range'_1]

/-- Reading behind a number drops the entries up to it. -/
theorem Consecutive.filter_gt (h : Consecutive key (n + 1) l) (c : Nat) :
    l.filter (fun a => c < key a) = l.drop (c - n) := by
  induction l generalizing n with
  | nil => simp
  | cons a l ih =>
    obtain ⟨ha, hl⟩ := h
    by_cases hc : c < n + 1
    · -- the head is behind the number, so nothing is dropped here or later
      have hdrop : c - n = 0 := by omega
      have hrest : c - (n + 1) = 0 := by omega
      rw [List.filter_cons_of_pos (by simpa [ha] using hc), ih hl, hdrop, hrest, List.drop_zero,
        List.drop_zero]
    · have hdrop : c - n = c - (n + 1) + 1 := by omega
      rw [List.filter_cons_of_neg (by simpa [ha] using hc), ih hl, hdrop, List.drop_succ_cons]

/-- The number of the last entry. -/
theorem Consecutive.key_getLast {a : α} (h : Consecutive key (n + 1) l) (ha : l.getLast? = some a) :
    key a = n + l.length := by
  obtain ⟨init, rfl⟩ := List.getLast?_eq_some_iff.mp ha
  have hlast : key a = n + 1 + init.length := (consecutive_append.mp h).2.1
  rw [hlast, List.length_append, List.length_singleton]
  omega

/-- The numbers of an initial part. -/
theorem Consecutive.take (h : Consecutive key n l) (k : Nat) : Consecutive key n (l.take k) := by
  rw [← List.take_append_drop k l] at h
  exact (consecutive_append.mp h).1

/-- The numbers of what is left behind one. -/
theorem Consecutive.drop {k : Nat} (h : Consecutive key n l) (hk : k ≤ l.length) :
    Consecutive key (n + k) (l.drop k) := by
  rw [← List.take_append_drop k l, consecutive_append, List.length_take_of_le hk] at h
  exact h.2

end Numbered
