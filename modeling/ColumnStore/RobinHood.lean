import Mathlib.Tactic.Linarith

/-!
# Tables in the order of a rank

A table assigns an entry or nothing to each slot. Every entry has a rank; its home slot is the
rank divided by `inc`, so that the ranks of one home are an interval of length `inc`. The entries
stand in the order of their ranks, none before its home, and without an empty slot between the
home of an entry and the entry.

An entry of rank `r` in slot `i` is described by the number `infoAt inc r i`, which grows by `inc`
from slot to slot. In one slot the smaller number is that of the larger rank, so a search compares
these numbers. Nothing is said about how many entries a table has.
-/

namespace RobinHood

open Nat

variable {α : Type*}

/-- The order of the entries. -/
structure Layout (inc : Nat) (rank : α → Nat) (s : Nat → Option α) : Prop where
  reached : ∀ {i e}, s i = some e → rank e / inc ≤ i
  filled : ∀ {i j e}, s i = some e → rank e / inc ≤ j → j < i → ∃ f, s j = some f
  sorted : ∀ {i j e f}, s i = some e → s j = some f → i < j → rank e ≤ rank f

/-- A search from the home of `r` passes the slots before `p` and ends at `p`. -/
structure Stop (inc : Nat) (rank : α → Nat) (s : Nat → Option α) (r p : Nat) : Prop where
  start : r / inc ≤ p
  passed : ∀ j, r / inc ≤ j → j < p → ∃ e, s j = some e ∧ rank e ≤ r
  ended : ∀ e, s p = some e → r < rank e

/-- The entry `e` in slot `p`, with the entries from `p` up to the empty slot `q` moved up. -/
def insertAt (s : Nat → Option α) (p q : Nat) (e : α) (i : Nat) : Option α :=
  if i < p then s i else if i = p then some e else if i ≤ q then s (i - 1) else s i

/-- The number that describes an entry of rank `r` in slot `i`. -/
def infoAt (inc r i : Nat) : Nat := (i + 2) * inc - 1 - r

variable {inc r r' i p q : Nat} {rank : α → Nat} {s : Nat → Option α} {e f : α}

section

variable (positive : 0 < inc)
include positive

section

variable (home : r / inc ≤ i)
include home

lemma rank_lt : r < (i + 1) * inc :=
  (div_lt_iff_lt_mul positive).mp (lt_succ_of_le home)

lemma infoAt_add : infoAt inc r i + r = (i + 2) * inc - 1 := by
  have below := rank_lt positive home
  unfold infoAt
  rw [add_mul] at below
  rw [add_mul]
  omega

lemma infoAt_succ : infoAt inc r (i + 1) = infoAt inc r i + inc := by
  have here := infoAt_add positive home
  have there := infoAt_add positive (home.trans (le_add_right i 1))
  rw [add_mul] at here there
  rw [add_mul i 1] at there
  omega

lemma infoAt_steps : infoAt inc r i = infoAt inc r (r / inc) + (i - r / inc) * inc := by
  obtain ⟨n, rfl⟩ := Nat.exists_eq_add_of_le home
  rw [Nat.add_sub_cancel_left]
  induction n with
  | zero => rw [add_zero, zero_mul, add_zero]
  | succ n later =>
    rw [← add_assoc, infoAt_succ positive (le_add_right _ _),
      later (le_add_right _ _), add_mul, one_mul, add_assoc]

lemma inc_le_infoAt : inc ≤ infoAt inc r i := by
  have below := rank_lt positive home
  have here := infoAt_add positive home
  rw [add_mul] at below here
  omega

lemma infoAt_lt_iff (home' : r' / inc ≤ i) : infoAt inc r i < infoAt inc r' i ↔ r' < r := by
  have first := infoAt_add positive home
  have second := infoAt_add positive home'
  omega

lemma infoAt_inj (home' : r' / inc ≤ i) : infoAt inc r i = infoAt inc r' i ↔ r = r' := by
  have first := infoAt_add positive home
  have second := infoAt_add positive home'
  omega

lemma distance_le : (i - r / inc + 1) * inc ≤ infoAt inc r i := by
  have here := infoAt_add positive home
  have below : r < (r / inc + 1) * inc := rank_lt positive (le_refl _)
  obtain ⟨d, rfl⟩ := Nat.exists_eq_add_of_le home
  rw [Nat.add_sub_cancel_left]
  generalize r / inc = start at *
  rw [add_mul, add_mul start] at here
  rw [add_mul] at below ⊢
  omega

end

end

/-- The slots from the home of an entry up to it are passed by a search for its rank. -/
lemma Layout.before (layout : Layout inc rank s) (found : s i = some e) {j : Nat}
    (home : rank e / inc ≤ j) (earlier : j < i) : ∃ f, s j = some f ∧ rank f ≤ rank e := by
  obtain ⟨f, here⟩ := layout.filled found home earlier
  exact ⟨f, here, layout.sorted here found earlier⟩

/-- An entry of the rank searched for stands before the end of the search. -/
lemma Layout.lt_stop (layout : Layout inc rank s) (found : s i = some e)
    (stop : Stop inc rank s (rank e) p) : i < p := by
  by_contra behind
  rcases lt_or_eq_of_le (not_lt.mp behind) with later | same
  · obtain ⟨f, here, order⟩ := layout.before found stop.start later
    exact absurd (stop.ended f here) (not_lt.mpr order)
  · subst same
    exact absurd (stop.ended e found) (lt_irrefl _)

lemma insertAt_of_lt (before : i < p) : insertAt s p q e i = s i := if_pos before

lemma insertAt_self : insertAt s p q e p = some e := by
  rw [insertAt, if_neg (lt_irrefl p), if_pos rfl]

lemma insertAt_of_moved (after : p < i) (within : i ≤ q) : insertAt s p q e i = s (i - 1) := by
  rw [insertAt, if_neg (by omega), if_neg (by omega), if_pos within]

lemma insertAt_of_gt (between : p ≤ q) (beyond : q < i) : insertAt s p q e i = s i := by
  rw [insertAt, if_neg (by omega), if_neg (by omega), if_neg (by omega)]

/-- Where an entry of the new table comes from. -/
lemma insertAt_cases (between : p ≤ q) (found : insertAt s p q e i = some f) :
    ((i < p ∨ q < i) ∧ s i = some f) ∨ (i = p ∧ f = e) ∨
      (p < i ∧ i ≤ q ∧ s (i - 1) = some f) := by
  rcases lt_trichotomy i p with before | same | after
  · rw [insertAt_of_lt before] at found
    exact .inl ⟨.inl before, found⟩
  · subst same
    rw [insertAt_self] at found
    exact .inr (.inl ⟨rfl, (Option.some.inj found).symm⟩)
  by_cases within : i ≤ q
  · rw [insertAt_of_moved after within] at found
    exact .inr (.inr ⟨after, within, found⟩)
  · rw [insertAt_of_gt between (not_le.mp within)] at found
    exact .inl ⟨.inr (not_le.mp within), found⟩

lemma exists_insertAt (between : p ≤ q) (free : s q = none) :
    (∃ i, insertAt s p q e i = some f) ↔ f = e ∨ ∃ i, s i = some f := by
  constructor
  · rintro ⟨i, found⟩
    rcases insertAt_cases between found with ⟨-, old⟩ | ⟨-, new⟩ | ⟨-, -, old⟩
    · exact .inr ⟨i, old⟩
    · exact .inl new
    · exact .inr ⟨i - 1, old⟩
  rintro (rfl | ⟨i, found⟩)
  · exact ⟨p, insertAt_self⟩
  have other : i ≠ q := by
    rintro rfl
    rw [free] at found
    cases found
  by_cases before : i < p
  · exact ⟨i, (insertAt_of_lt before).trans found⟩
  by_cases moved : i < q
  · refine ⟨i + 1, ?_⟩
    rw [insertAt_of_moved (by omega) (by omega), Nat.add_sub_cancel, found]
  · exact ⟨i, (insertAt_of_gt between (by omega)).trans found⟩

lemma insertAt_occupied (full : ∀ j, p ≤ j → j < q → ∃ f, s j = some f)
    (old : (∃ f, s i = some f) ∨ i = q) (between : p ≤ q) : ∃ f, insertAt s p q e i = some f := by
  rcases lt_trichotomy i p with before | same | after
  · rw [insertAt_of_lt before]
    rcases old with old | rfl
    · exact old
    · omega
  · subst same
    exact ⟨e, insertAt_self⟩
  by_cases within : i ≤ q
  · rw [insertAt_of_moved after within]
    exact full (i - 1) (by omega) (by omega)
  rw [insertAt_of_gt between (by omega)]
  rcases old with old | rfl
  · exact old
  · omega

section Insert

variable (layout : Layout inc rank s) (stop : Stop inc rank s (rank e) p)

include layout stop

/-- The entries before the end of a search have ranks up to that searched for. -/
lemma Layout.le_of_lt_stop (found : s i = some f) (before : i < p) : rank f ≤ rank e := by
  by_cases home : rank e / inc ≤ i
  · obtain ⟨g, here, order⟩ := stop.passed i home before
    rw [found] at here
    exact Option.some.inj here ▸ order
  by_contra larger
  have := Nat.div_le_div_right (c := inc) (Nat.le_of_lt (Nat.not_le.mp larger))
  have := layout.reached found
  omega

/-- Those from its end on have larger ones. -/
lemma Layout.lt_of_stop_le (found : s i = some f) (after : p ≤ i) : rank e < rank f := by
  by_contra smaller
  have home : rank f / inc ≤ p :=
    (Nat.div_le_div_right (Nat.not_lt.mp smaller)).trans stop.start
  rcases lt_or_eq_of_le after with later | rfl
  · obtain ⟨g, here, order⟩ := layout.before found home later
    exact smaller ((stop.ended g here).trans_le order)
  · exact smaller (stop.ended f found)

lemma Layout.insertAt (between : p ≤ q) (full : ∀ j, p ≤ j → j < q → ∃ f, s j = some f) :
    Layout inc rank (RobinHood.insertAt s p q e) := by
  have occupied : ∀ j, (∃ f, s j = some f) ∨ j = q → ∃ f, RobinHood.insertAt s p q e j = some f :=
    fun j old => insertAt_occupied full old between
  constructor
  · intro i f found
    rcases insertAt_cases between found with ⟨-, old⟩ | ⟨rfl, rfl⟩ | ⟨-, -, old⟩
    · exact layout.reached old
    · exact stop.start
    · exact (layout.reached old).trans (sub_le i 1)
  · intro i j f found home earlier
    rcases insertAt_cases between found with ⟨-, old⟩ | ⟨rfl, rfl⟩ | ⟨-, -, old⟩
    · exact occupied j (.inl (layout.filled old home earlier))
    · obtain ⟨g, here, -⟩ := stop.passed j home earlier
      exact occupied j (.inl ⟨g, here⟩)
    · by_cases last : j = i - 1
      · exact occupied j (.inl ⟨f, last ▸ old⟩)
      · exact occupied j (.inl (layout.filled old home (by omega)))
  intro i j f g first second earlier
  -- the entries before `p` are at most `e`, which is below those moved and those behind
  rcases insertAt_cases between first with ⟨hi, old⟩ | ⟨hi, rfl⟩ | ⟨hi, hi', old⟩ <;>
  rcases insertAt_cases between second with ⟨hj, new⟩ | ⟨hj, rfl⟩ | ⟨hj, hj', new⟩
  · exact layout.sorted old new earlier
  · exact layout.le_of_lt_stop stop old (by omega)
  · exact layout.sorted old new (by omega)
  · exact (layout.lt_of_stop_le stop new (by omega)).le
  · omega
  · exact (layout.lt_of_stop_le stop new (by omega)).le
  · exact layout.sorted old new (by omega)
  · omega
  · exact layout.sorted old new (by omega)

end Insert

lemma infoAt_half {half : Nat} (positive : 0 < half) (home : r / (2 * half) ≤ i) :
    infoAt (2 * half) r i / 2 = infoAt half (r / 2) i := by
  have whole := infoAt_add (by omega) home
  have home' : r / 2 / half ≤ i := by rwa [Nat.div_div_eq_div_mul]
  have part := infoAt_add positive home'
  rw [← mul_assoc, mul_comm _ 2, mul_assoc] at whole
  generalize (i + 2) * half = n at *
  omega

lemma Layout.halve {half : Nat} (layout : Layout (2 * half) rank s) :
    Layout half (fun e => rank e / 2) s := by
  constructor
  · intro i e found
    rw [Nat.div_div_eq_div_mul]
    exact layout.reached found
  · intro i j e found home earlier
    rw [Nat.div_div_eq_div_mul] at home
    exact layout.filled found home earlier
  · intro i j e f first second earlier
    exact Nat.div_le_div_right (layout.sorted first second earlier)

lemma Layout.empty : Layout inc rank fun _ => none := ⟨nofun, nofun, nofun⟩

end RobinHood
