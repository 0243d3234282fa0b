import Mathlib.Order.WellFounded
import Mathlib.Data.List.Sort

/-! # Paging through changing lists

A reader asks for a sorted list page by page and passes back a cursor, the last key of the page before.
The list may be another one at each call. The pages are strictly increasing, a key that stays in the
list is returned exactly once, and the scan ends when the order has no infinite ascent.

A reader may also pass back a position. Then an entry that stays in the list is missed when it slips to
the front of the position between two calls, and returned again when it slips behind it. -/

namespace Paging

variable {K : Type} [LinearOrder K]

/-- The part of a list behind a cursor. -/
def beyond (cursor : Option K) (l : List K) : List K := l.filter fun k => cursor.all (· < k)

/-- The first part of a list, and its last key if there is more. -/
def cut (limit : Nat) (l : List K) : List K × Option K :=
  if l.length ≤ limit then (l, none) else (l.take limit, (l.take limit).getLast?)

/-- A page, and the cursor to go on from if there is more. -/
def page (limit : Nat) (cursor : Option K) (l : List K) : List K × Option K :=
  cut limit (beyond cursor l)

variable {cursor : Option K} {l : List K} {limit : Nat} {k next : K}

theorem mem_beyond : k ∈ beyond cursor l ↔ k ∈ l ∧ ∀ c ∈ cursor, c < k := by
  rw [beyond, List.mem_filter]
  cases cursor <;> simp

theorem length_page_le : (page limit cursor l).1.length ≤ limit := by
  rw [page, cut]
  split
  · assumption
  · exact List.length_take_le _ _

theorem page_sublist : (page limit cursor l).1.Sublist (beyond cursor l) := by
  rw [page, cut]
  split
  · exact List.Sublist.refl _
  · exact List.take_sublist _ _

/-- A page of a sorted list is sorted, -/
theorem pairwise_page (hl : l.Pairwise (· < ·)) : (page limit cursor l).1.Pairwise (· < ·) :=
  (hl.filter _).sublist page_sublist

/-- and lies behind the cursor. -/
theorem lt_of_mem_page (hk : k ∈ (page limit cursor l).1) : ∀ c ∈ cursor, c < k :=
  (mem_beyond.mp (page_sublist.subset hk)).2

/-- A page without a cursor is all that was left. -/
theorem page_of_none (h : (page limit cursor l).2 = none) (hlimit : 0 < limit) :
    (page limit cursor l).1 = beyond cursor l := by
  rw [page, cut] at h ⊢
  split
  · rfl
  · rename_i hmore
    rw [if_neg hmore] at h
    have hlength : (beyond cursor l).take limit = [] := List.getLast?_eq_none_iff.mp h
    have := congrArg List.length hlength
    rw [List.length_take, List.length_nil] at this
    omega

theorem page_of_some (h : (page limit cursor l).2 = some next) :
    (page limit cursor l).1 = (beyond cursor l).take limit ∧
      ((beyond cursor l).take limit).getLast? = some next := by
  rw [page, cut] at h ⊢
  split
  · rename_i hall
    rw [if_pos hall] at h
    cases h
  · rename_i hmore
    rw [if_neg hmore] at h
    exact ⟨rfl, h⟩

/-- Up to the next cursor nothing is left out, and nothing behind it is on the page. -/
theorem mem_page_iff_of_some (hl : l.Pairwise (· < ·)) (h : (page limit cursor l).2 = some next) :
    k ∈ (page limit cursor l).1 ↔ k ∈ beyond cursor l ∧ k ≤ next := by
  obtain ⟨htake, hlast⟩ := page_of_some h
  obtain ⟨init, hinit⟩ := List.getLast?_eq_some_iff.mp hlast
  have hsorted : (beyond cursor l).Pairwise (· < ·) := hl.filter _
  rw [← List.take_append_drop limit (beyond cursor l), List.pairwise_append] at hsorted
  obtain ⟨hfirst, -, hcross⟩ := hsorted
  rw [htake]
  constructor
  · intro hk
    refine ⟨List.mem_of_mem_take hk, ?_⟩
    rw [hinit, List.mem_append, List.mem_singleton] at hk
    rw [hinit, List.pairwise_append] at hfirst
    rcases hk with hk | rfl
    · exact (hfirst.2.2 k hk next (List.mem_singleton_self next)).le
    · exact le_rfl
  · rintro ⟨hk, hle⟩
    rw [← List.take_append_drop limit (beyond cursor l), List.mem_append] at hk
    refine hk.resolve_right fun hdrop => ?_
    exact absurd (hcross next (List.mem_of_getLast? hlast) k hdrop) (not_lt.mpr hle)

/-- The next cursor is behind the one before. -/
theorem lt_of_page_some (h : (page limit cursor l).2 = some next) : ∀ c ∈ cursor, c < next := by
  obtain ⟨htake, hlast⟩ := page_of_some h
  have hmem := List.mem_of_getLast? hlast
  rw [← htake] at hmem
  exact lt_of_mem_page hmem

/-! ## Scans -/

variable (lists : Nat → List K) (limits : Nat → Nat)

/-- `Scan lists limits i cursor pages`: from the call `i` on, a reader with the given cursor gets the
given pages, up to the first without a cursor to go on from. -/
inductive Scan : Nat → Option K → List (List K) → Prop
  | last {i : Nat} {cursor : Option K} (h : (page (limits i) cursor (lists i)).2 = none) :
      Scan i cursor [(page (limits i) cursor (lists i)).1]
  | more {i : Nat} {cursor : Option K} {next : K} {pages : List (List K)}
      (h : (page (limits i) cursor (lists i)).2 = some next) (hrest : Scan (i + 1) (some next) pages) :
      Scan i cursor ((page (limits i) cursor (lists i)).1 :: pages)

variable {lists limits} {i : Nat} {pages : List (List K)}

/-- **The pages of a scan are strictly increasing**, and behind the cursor it starts from. -/
theorem Scan.pairwise (hscan : Scan lists limits i cursor pages)
    (hlists : ∀ i, (lists i).Pairwise (· < ·)) :
    pages.flatten.Pairwise (· < ·) ∧ ∀ k ∈ pages.flatten, ∀ c ∈ cursor, c < k := by
  induction hscan with
  | last h =>
    rw [List.flatten_singleton]
    exact ⟨pairwise_page (hlists _), fun k => lt_of_mem_page⟩
  | more h hrest ih =>
    obtain ⟨hpairs, hbehind⟩ := ih
    have hnext := fun k => mem_page_iff_of_some (k := k) (hlists _) h
    rw [List.flatten_cons, List.pairwise_append]
    refine ⟨⟨pairwise_page (hlists _), hpairs, fun k hk k' hk' => ?_⟩, fun k hk => ?_⟩
    · exact lt_of_le_of_lt ((hnext k).mp hk).2 (hbehind k' hk' _ rfl)
    · rcases List.mem_append.mp hk with hk | hk
      · exact lt_of_mem_page hk
      · -- Later pages lie behind the next cursor, which lies behind this one.
        exact fun c hc => (lt_of_page_some h c hc).trans (hbehind k hk _ rfl)

/-- Each page keeps to the limit of its call. -/
theorem Scan.length_le (hscan : Scan lists limits i cursor pages) {j : Nat} {p : List K}
    (hp : pages[j]? = some p) : p.length ≤ limits (i + j) := by
  induction hscan generalizing j with
  | last h =>
    cases j with
    | zero =>
      cases hp
      exact length_page_le
    | succ j => cases hp
  | more h hrest ih =>
    cases j with
    | zero =>
      cases hp
      exact length_page_le
    | succ j =>
      rw [List.getElem?_cons_succ] at hp
      have := ih hp
      rwa [Nat.add_assoc, Nat.add_comm 1 j] at this

/-- **What stays in the list is returned.** -/
theorem Scan.mem_of_stays (hscan : Scan lists limits i cursor pages)
    (hlists : ∀ i, (lists i).Pairwise (· < ·)) (hlimits : ∀ i, 0 < limits i)
    (hstays : ∀ j < pages.length, k ∈ lists (i + j)) (hcursor : ∀ c ∈ cursor, c < k) :
    k ∈ pages.flatten := by
  induction hscan with
  | @last i cursor h =>
    rw [List.flatten_singleton, page_of_none h (hlimits i), mem_beyond]
    exact ⟨hstays 0 (by simp), hcursor⟩
  | @more i cursor next pages h hrest ih =>
    rw [List.flatten_cons, List.mem_append]
    rcases le_or_gt k next with hle | hgt
    · left
      rw [mem_page_iff_of_some (hlists i) h, mem_beyond]
      exact ⟨⟨hstays 0 (by simp), hcursor⟩, hle⟩
    · right
      refine ih (fun j hj => ?_) fun c hc => ?_
      · have := hstays (j + 1) (by simpa using hj)
        rwa [Nat.add_assoc, Nat.add_comm 1 j]
      · rwa [← Option.some.inj hc]

/-- **A scan ends.** -/
theorem exists_scan [WellFoundedGT K] (lists : Nat → List K) (limits : Nat → Nat) (i : Nat)
    (cursor : Option K) : ∃ pages, Scan lists limits i cursor pages := by
  -- Every page but the last moves the cursor up.
  have key : ∀ c i, ∃ pages, Scan lists limits i (some c) pages := by
    intro c
    induction c using WellFoundedGT.induction with
    | ind c ih =>
      intro i
      cases h : (page (limits i) (some c) (lists i)).2 with
      | none => exact ⟨_, .last h⟩
      | some next =>
        obtain ⟨pages, hscan⟩ := ih next (lt_of_page_some h c rfl) (i + 1)
        exact ⟨_, .more h hscan⟩
  cases h : (page (limits i) cursor (lists i)).2 with
  | none => exact ⟨_, .last h⟩
  | some next =>
    obtain ⟨pages, hscan⟩ := key next (i + 1)
    exact ⟨_, .more h hscan⟩

/-! ## Scans by position -/

section Positions

variable {E : Type} (lists : Nat → List E)

/-- `PositionScan lists i start ends pages`: from the call `i` on, a reader at the position `start` gets
the given pages; each but the last ends at a position, where the next one starts. -/
inductive PositionScan : Nat → Nat → List Nat → List (List E) → Prop
  | last {i start : Nat} : PositionScan i start [] [(lists i).drop start]
  | more {i start next : Nat} {ends : List Nat} {pages : List (List E)} (h : start ≤ next)
      (hrest : PositionScan (i + 1) next ends pages) :
      PositionScan i start (next :: ends) (((lists i).take next).drop start :: pages)

/-- The pages of a list that stays the same are the list from the start on. -/
theorem PositionScan.flatten {l : List E} {i start : Nat} {ends : List Nat} {pages : List (List E)}
    (hscan : PositionScan (fun _ => l) i start ends pages) : pages.flatten = l.drop start := by
  induction hscan with
  | last => exact List.flatten_singleton
  | @more i start next ends pages hle hrest ih =>
    have hlater : l.drop next = (l.drop start).drop (next - start) := by
      rw [List.drop_drop, Nat.add_sub_cancel' hle]
    rw [List.flatten_cons, ih, List.drop_take, hlater, List.take_append_drop]

variable [BEq E] [LawfulBEq E]

/-- How often an entry slips to the front of the position between two calls. -/
def slipsFront (e : E) : Nat → List Nat → Nat
  | _, [] => 0
  | i, next :: ends =>
    (if e ∉ (lists i).take next ∧ e ∈ (lists (i + 1)).take next then 1 else 0) +
      slipsFront e (i + 1) ends

/-- How often an entry slips behind the position between two calls. -/
def slipsBehind (e : E) : Nat → List Nat → Nat
  | _, [] => 0
  | i, next :: ends =>
    (if e ∈ (lists i).take next ∧ e ∉ (lists (i + 1)).take next then 1 else 0) +
      slipsBehind e (i + 1) ends

variable {lists}

/-- The part of a list behind a position has the entries that are not in front of it. -/
theorem count_drop {e : E} {l : List E} (h : l.count e = 1) (n : Nat) :
    (l.drop n).count e = if e ∈ l.take n then 0 else 1 := by
  have hsplit : (l.take n).count e + (l.drop n).count e = 1 := by
    rw [← List.count_append, List.take_append_drop, h]
  split
  · rename_i hmem
    have := List.count_pos_iff.mpr hmem
    omega
  · rename_i hmem
    rw [List.count_eq_zero.mpr hmem] at hsplit
    omega

/-- The part of a list between two positions. -/
theorem count_between {e : E} {l : List E} (h : l.count e = 1) {start next : Nat} (hle : start ≤ next) :
    ((l.take next).drop start).count e =
      if e ∈ l.take start then 0 else if e ∈ l.take next then 1 else 0 := by
  have htake : (l.take next).take start = l.take start := by
    rw [List.take_take, Nat.min_eq_left hle]
  by_cases hnext : e ∈ l.take next
  · have hcount : (l.take next).count e = 1 := by
      have hle := (List.take_sublist next l).count_le e
      have hpos := List.count_pos_iff.mpr hnext
      omega
    rw [count_drop hcount, htake, if_pos hnext]
  · have hstart : e ∉ l.take start := by
      rw [← htake]
      exact fun hmem => hnext (List.mem_of_mem_take hmem)
    rw [if_neg hstart, if_neg hnext]
    exact List.count_eq_zero.mpr fun hmem => hnext (List.mem_of_mem_drop hmem)

/-- **How often an entry that stays in the list is returned**: once, less the times it slips to the front
of the position, plus the times it slips behind it. -/
theorem PositionScan.count {e : E} {i start : Nat} {ends : List Nat} {pages : List (List E)}
    (hscan : PositionScan lists i start ends pages)
    (hstays : ∀ j < pages.length, (lists (i + j)).count e = 1) :
    pages.flatten.count e + slipsFront lists e i ends =
      (if e ∈ (lists i).take start then 0 else 1) + slipsBehind lists e i ends := by
  induction hscan with
  | @last i start =>
    have hhere : (lists i).count e = 1 := hstays 0 (by simp)
    rw [List.flatten_singleton, count_drop hhere, slipsFront, slipsBehind]
  | @more i start next ends pages hle hrest ih =>
    have hrest := ih fun j hj => by
      have := hstays (j + 1) (by simpa using hj)
      rwa [Nat.add_assoc, Nat.add_comm 1 j]
    have hfront : e ∈ (lists i).take start → e ∈ (lists i).take next := by
      rw [← Nat.min_eq_left hle, ← List.take_take]
      exact List.mem_of_mem_take
    have hhere : (lists i).count e = 1 := hstays 0 (by simp)
    rw [List.flatten_cons, List.count_append, count_between hhere hle, slipsFront, slipsBehind]
    -- where the entry stands before and after the change decides both sides
    by_cases hstart : e ∈ (lists i).take start
    · have hnext := hfront hstart
      by_cases hlater : e ∈ (lists (i + 1)).take next <;>
        simp only [hstart, hnext, hlater, if_true, if_false, not_true_eq_false, not_false_eq_true,
          and_true, and_false] at hrest ⊢ <;>
        omega
    · by_cases hnext : e ∈ (lists i).take next <;>
        by_cases hlater : e ∈ (lists (i + 1)).take next <;>
        simp only [hstart, hnext, hlater, if_true, if_false, not_true_eq_false, not_false_eq_true,
          and_true, and_false] at hrest ⊢ <;>
        omega

end Positions

end Paging
