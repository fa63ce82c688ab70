import Mathlib.Algebra.Group.End
import Mathlib.Algebra.Order.Ring.Int
import Mathlib.Tactic.Common

/-!
# The sort of the window functions

`WindowFunction::sort` and its copy `WindowFunctionStep::sort`, which differ only in the name of
the comparison. The vector is a function from iterators, so that `h` may stand before its first
element. Cancellation is left out: `cancelled()` is false throughout.
-/

namespace WindowSort

open Equiv (Perm swap)

variable {α : Type}

/-- The conversion of a signed length to `uint64_t`. -/
def unsigned (length : Int) : Nat := (length % 2 ^ 64).toNat

/-- The loop of `sort`; `none` is a comparison or a swap outside the elements from `first` to
before `last`. -/
def sortLoop (orderBy : α → α → Bool) (first last : Int) (p : α) (rows : Int → α) (l h : Int) :
    Option ((Int → α) × Int × Int) :=
  if l ≤ h then
    if l < first ∨ last ≤ h then none
    else if orderBy (rows l) p then sortLoop orderBy first last p rows (l + 1) h
    else if orderBy p (rows h) then sortLoop orderBy first last p rows l (h - 1)
    else sortLoop orderBy first last p (rows ∘ swap l h) (l + 1) (h - 1)
  else some (rows, l, h)
termination_by (h + 1 - l).toNat
decreasing_by all_goals omega

/-- `sort`, nested at most `depth` calls deep; `none` is also a recursion that is deeper. -/
def sort (orderBy : α → α → Bool) (first last : Int) :
    Nat → (Int → α) → Int → Nat → Option (Int → α)
  | 0, _, _, _ => none
  | depth + 1, rows, v, n =>
    if n < 2 then some rows
    else do
      let p := rows (v + (n / 2 : Nat))
      let (rows, l, h) ← sortLoop orderBy first last p rows v (v + (n - 1 : Nat))
      let rows ← sort orderBy first last depth rows v (unsigned (h - v + 1))
      sort orderBy first last depth rows l (unsigned (v - l + n))

/-- The elements from `lo` to before `hi` have changed places, and no others. -/
def Rearranged (lo hi : Int) (rows rows' : Int → α) : Prop :=
  ∃ σ : Perm Int, (∀ i, i < lo ∨ hi ≤ i → σ i = i) ∧ rows' = rows ∘ σ

def Sorted (orderBy : α → α → Bool) (lo hi : Int) (rows : Int → α) : Prop :=
  ∀ i j, lo ≤ i → i < j → j < hi → ¬ orderBy (rows j) (rows i)

variable {orderBy : α → α → Bool} {first last lo hi v l h : Int} {n : Nat} {p : α}
  {rows rows' : Int → α}

/-- What is not after the pivot is not after what is not before it. -/
lemma not_less_of_pivot (order : IsStrictWeakOrder α fun x y => orderBy x y) {x y : α}
    (below : ¬ orderBy p x) (above : ¬ orderBy y p) : ¬ orderBy y x := by
  intro less
  have notBelow : ¬ orderBy x p := fun isBelow => above (order.trans y x p less isBelow)
  have notAbove : ¬ orderBy p y := fun isAbove => below (order.trans p y x isAbove less)
  exact (order.incomp_trans y p x ⟨above, notAbove⟩ ⟨below, notBelow⟩).1 less

namespace Rearranged

lemma refl : Rearranged lo hi rows rows := ⟨1, fun _ _ => rfl, rfl⟩

lemma trans {rows'' : Int → α} (first : Rearranged lo hi rows rows')
    (second : Rearranged lo hi rows' rows'') : Rearranged lo hi rows rows'' := by
  obtain ⟨σ, fixes, rfl⟩ := first
  obtain ⟨τ, fixes', rfl⟩ := second
  refine ⟨σ * τ, fun i out => ?_, rfl⟩
  rw [Equiv.Perm.mul_apply, fixes' i out, fixes i out]

lemma widen {lo' hi' : Int} (moved : Rearranged lo' hi' rows rows') (low : lo ≤ lo')
    (high : hi' ≤ hi) : Rearranged lo hi rows rows' := by
  obtain ⟨σ, fixes, rfl⟩ := moved
  exact ⟨σ, fun i out => fixes i (by omega), rfl⟩

lemma swapped (low : lo ≤ l) (ordered : l ≤ h) (high : h < hi) :
    Rearranged lo hi rows (rows ∘ swap l h) :=
  ⟨swap l h, fun _ out => Equiv.swap_apply_of_ne_of_ne (by omega) (by omega), rfl⟩

lemma outside (moved : Rearranged lo hi rows rows') {i : Int} (out : i < lo ∨ hi ≤ i) :
    rows' i = rows i := by
  obtain ⟨σ, fixes, rfl⟩ := moved
  exact congrArg rows (fixes i out)

/-- What holds of all elements of a stretch around the rearranged ones still does. -/
lemma keeps (moved : Rearranged lo hi rows rows') {q : α → Prop} {low high : Int}
    (from_low : low ≤ lo) (to_high : hi ≤ high) (holds : ∀ i, low ≤ i → i < high → q (rows i)) :
    ∀ i, low ≤ i → i < high → q (rows' i) := by
  obtain ⟨σ, fixes, rfl⟩ := moved
  intro i above below
  by_cases out : σ i < lo ∨ hi ≤ σ i
  · have same : σ i = i := σ.injective (fixes (σ i) out)
    rw [Function.comp_apply, same]
    exact holds i above below
  · exact holds (σ i) (by omega) (by omega)

end Rearranged

/-- The loop: nothing before `l` is greater than the pivot, nothing after `h` less, and an element
that stops both scans is ahead, unless there has been a swap. -/
structure Crossing (orderBy : α → α → Bool) (lo hi : Int) (p : α) (rows : Int → α) (l h : Int) :
    Prop where
  low : lo ≤ l
  high : h < hi
  near : l ≤ h + 2
  before : ∀ i, lo ≤ i → i < l → ¬ orderBy p (rows i)
  after : ∀ i, h + 1 ≤ i → i < hi → ¬ orderBy (rows i) p
  swapped : (∃ k, l ≤ k ∧ k ≤ h ∧ ¬ orderBy (rows k) p ∧ ¬ orderBy p (rows k)) ∨ lo < l ∧ h + 1 < hi

namespace Crossing

/-- The middle element, which is the pivot, stops both scans. -/
lemma start (order : IsStrictWeakOrder α fun x y => orderBy x y) (rows : Int → α) (v : Int)
    (positive : 0 < n) :
    Crossing orderBy v (v + n) (rows (v + (n / 2 : Nat))) rows v (v + (n - 1 : Nat)) where
  low := le_rfl
  high := by omega
  near := by omega
  before := fun i above below => by omega
  after := fun i above below => by omega
  swapped := .inl ⟨v + (n / 2 : Nat), by omega, by omega, order.irrefl _, order.irrefl _⟩

variable (crossing : Crossing orderBy lo hi p rows l h)
include crossing

lemma raise (order : IsStrictWeakOrder α fun x y => orderBy x y) (ordered : l ≤ h)
    (less : orderBy (rows l) p) : Crossing orderBy lo hi p rows (l + 1) h := by
  obtain ⟨low, high, near, before, after, swapped⟩ := crossing
  refine ⟨by omega, high, by omega, fun i above below => ?_, after, ?_⟩
  · rcases eq_or_ne i l with rfl | other
    · exact fun greater => order.irrefl _ (order.trans _ _ _ less greater)
    · exact before i above (by omega)
  rcases swapped with ⟨k, above, below, stops⟩ | moved
  · have other : k ≠ l := fun same => stops.1 (same ▸ less)
    exact .inl ⟨k, by omega, below, stops⟩
  · exact .inr (by omega)

lemma lower (order : IsStrictWeakOrder α fun x y => orderBy x y) (ordered : l ≤ h)
    (greater : orderBy p (rows h)) : Crossing orderBy lo hi p rows l (h - 1) := by
  obtain ⟨low, high, near, before, after, swapped⟩ := crossing
  refine ⟨low, by omega, by omega, before, fun i above below => ?_, ?_⟩
  · rcases eq_or_ne i h with rfl | other
    · exact fun less => order.irrefl _ (order.trans _ _ _ less greater)
    · exact after i (by omega) below
  rcases swapped with ⟨k, above, below, stops⟩ | moved
  · have other : k ≠ h := fun same => stops.2 (same ▸ greater)
    exact .inl ⟨k, above, by omega, stops⟩
  · exact .inr (by omega)

lemma exchange (ordered : l ≤ h) (notLess : ¬ orderBy (rows l) p)
    (notGreater : ¬ orderBy p (rows h)) :
    Crossing orderBy lo hi p (rows ∘ swap l h) (l + 1) (h - 1) := by
  obtain ⟨low, high, near, before, after, -⟩ := crossing
  refine ⟨by omega, by omega, by omega, fun i above below => ?_, fun i above below => ?_,
    .inr (by omega)⟩ <;> rw [Function.comp_apply]
  · rcases eq_or_ne i l with rfl | other
    · rwa [Equiv.swap_apply_left]
    · rw [Equiv.swap_apply_of_ne_of_ne other (by omega)]
      exact before i above (by omega)
  · rcases eq_or_ne i h with rfl | other
    · rwa [Equiv.swap_apply_right]
    · rw [Equiv.swap_apply_of_ne_of_ne (by omega) other]
      exact after i (by omega) below

/-- Both parts may be rearranged, each on its own side. -/
lemma of_rearranged {rows₂ rows₃ : Int → α} (crossed : h < l) (swapped : lo < l ∧ h + 1 < hi)
    (left : Rearranged lo (h + 1) rows rows₂) (right : Rearranged l hi rows₂ rows₃) :
    Crossing orderBy lo hi p rows₃ l h :=
  { crossing with
    before := fun i above below => by
      rw [right.outside (.inl below)]
      exact left.keeps (q := (¬ orderBy p ·)) le_rfl (by omega) crossing.before i above below
    after := by
      refine right.keeps (q := (¬ orderBy · p)) (by omega) le_rfl fun i above below => ?_
      rw [left.outside (.inr above)]
      exact crossing.after i above below
    swapped := .inr swapped }

/-- The two ends are sorted, and what is before `l` is not after the pivot in the order. -/
lemma sorted (order : IsStrictWeakOrder α fun x y => orderBy x y)
    (left : Sorted orderBy lo (h + 1) rows) (right : Sorted orderBy l hi rows) :
    Sorted orderBy lo hi rows := by
  intro i j from_lo less to_hi
  by_cases inLeft : j < h + 1
  · exact left i j from_lo less inLeft
  by_cases inRight : l ≤ i
  · exact right i j inRight less to_hi
  have below := crossing.before i from_lo (by omega)
  have above := crossing.after j (by omega) to_hi
  exact not_less_of_pivot order below above

end Crossing

lemma sortLoop_spec (order : IsStrictWeakOrder α fun x y => orderBy x y) (low : first ≤ lo)
    (high : hi ≤ last) (crossing : Crossing orderBy lo hi p rows l h) :
    ∃ rows' l' h', sortLoop orderBy first last p rows l h = some (rows', l', h') ∧
      Rearranged lo hi rows rows' ∧ Crossing orderBy lo hi p rows' l' h' ∧ h' < l' := by
  fun_induction sortLoop orderBy first last p rows l h with
  | case1 rows l h ordered out =>
    exact absurd out (by have := crossing.low; have := crossing.high; omega)
  | case2 rows l h ordered out less ih => exact ih (crossing.raise order ordered less)
  | case3 rows l h ordered out notLess greater ih => exact ih (crossing.lower order ordered greater)
  | case4 rows l h ordered out notLess notGreater ih =>
    obtain ⟨rows', l', h', done, moved, rest⟩ := ih (crossing.exchange ordered notLess notGreater)
    refine ⟨rows', l', h', done, .trans ?_ moved, rest⟩
    exact .swapped crossing.low ordered crossing.high
  | case5 rows l h crossed => exact ⟨rows, l, h, rfl, .refl, crossing, by omega⟩

lemma unsigned_of_fits {length : Int} (positive : 0 ≤ length) (small : length < 2 ^ 64) :
    (unsigned length : Int) = length := by
  rw [unsigned, Int.emod_eq_of_lt positive small, Int.toNat_of_nonneg positive]

/-- However deep it may nest beyond `n`, the sort returns, without an access outside its range or
any stretch around it, and leaves the range in order. -/
theorem sort_sorts (order : IsStrictWeakOrder α fun x y => orderBy x y) (rows : Int → α) (v : Int)
    (n : Nat) (fits : n < 2 ^ 64) (low : first ≤ v) (high : v + n ≤ last) :
    ∃ sorted, (∀ depth, n < depth → sort orderBy first last depth rows v n = some sorted) ∧
      Rearranged v (v + n) rows sorted ∧ Sorted orderBy v (v + n) sorted := by
  induction n using Nat.strong_induction_on generalizing rows v with
  | h n ih =>
    by_cases short : n < 2
    · refine ⟨rows, fun depth deep => ?_, .refl, fun i j from_lo less to_hi => by omega⟩
      obtain ⟨depth, rfl⟩ := Nat.exists_eq_add_of_lt deep
      rw [sort, if_pos short]
    have start := Crossing.start order rows v (by omega : 0 < n)
    obtain ⟨rows₁, l, h, looped, moved₁, crossing, crossed⟩ := sortLoop_spec order low high start
    -- the pivot is not ahead any more, so that there has been a swap and both parts are shorter
    have swapped := crossing.swapped.resolve_left (by rintro ⟨k, above, below, -⟩; omega)
    have near := crossing.near
    have leftLength : (unsigned (h - v + 1) : Int) = h - v + 1 :=
      unsigned_of_fits (by omega) (by omega)
    have rightLength : (unsigned (v - l + n) : Int) = v - l + n :=
      unsigned_of_fits (by omega) (by omega)
    obtain ⟨rows₂, left, moved₂, sorted₂⟩ :=
      ih (unsigned (h - v + 1)) (by omega) rows₁ v (by omega) low (by omega)
    obtain ⟨rows₃, right, moved₃, sorted₃⟩ :=
      ih (unsigned (v - l + n)) (by omega) rows₂ l (by omega) (by omega) (by omega)
    rw [leftLength, show v + (h - v + 1) = h + 1 by omega] at moved₂ sorted₂
    rw [rightLength, show l + (v - l + n) = v + n by omega] at moved₃ sorted₃
    have kept := crossing.of_rearranged crossed swapped moved₂ moved₃
    have sorted₂' : Sorted orderBy v (h + 1) rows₃ := fun i j from_lo less to_hi => by
      rw [moved₃.outside (.inl (by omega)), moved₃.outside (.inl (by omega))]
      exact sorted₂ i j from_lo less to_hi
    refine ⟨rows₃, fun depth deep => ?_, ?_, kept.sorted order sorted₂' sorted₃⟩
    · obtain ⟨depth, rfl⟩ := Nat.exists_eq_add_of_lt deep
      rw [sort, if_neg short]
      simp only [looped]
      change (sort orderBy first last _ rows₁ v _).bind _ = _
      rw [left _ (by omega)]
      exact right _ (by omega)
    · exact moved₁.trans ((moved₂.widen le_rfl (by omega)).trans (moved₃.widen (by omega) le_rfl))

/-- Five rows ordered by their tens, so that some are equal. -/
theorem sort_sorts_byTens :
    ∃ sorted, (∀ depth, 5 < depth →
        sort (fun x y : Nat => decide (x / 10 < y / 10)) 0 5 depth
          (fun i => [21, 13, 25, 11, 22].getD i.toNat 0) 0 5 = some sorted) ∧
      Rearranged 0 (0 + (5 : Nat)) (fun i => [21, 13, 25, 11, 22].getD i.toNat 0) sorted ∧
      Sorted (fun x y : Nat => decide (x / 10 < y / 10)) 0 (0 + (5 : Nat)) sorted := by
  have order : IsStrictWeakOrder Nat fun x y => decide (x / 10 < y / 10) :=
    { irrefl := fun x => by simp
      trans := fun x y z less less' => by simp only [decide_eq_true_eq] at *; omega
      incomp_trans := fun x y z same same' => by simp only [decide_eq_true_eq] at *; omega }
  exact sort_sorts order _ 0 5 (by decide) (by decide) (by decide)

end WindowSort
