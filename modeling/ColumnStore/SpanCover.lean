import Mathlib.Data.BitVec
import Mathlib.Data.List.Count
import Mathlib.Data.List.Perm.Basic

/-!
# How often a list of spans contains a point

A span is a first point and a length. `cover` counts the spans of a list that
contain a point, so that "every point is in exactly one span" is an equation and
every change of the list an addition to it. `lastIndex` is what a loop over a
list finds that remembers the last position meeting a condition.
-/

namespace SpanCover

open List

/-- The points from `first` on, `length` of them. -/
structure Span where
  first : Nat
  length : Nat
  deriving DecidableEq, Repr

def Span.Contains (s : Span) (x : Nat) : Prop := s.first ≤ x ∧ x < s.first + s.length
  deriving Decidable

/-- One for a point of the span, zero elsewhere. -/
def Span.hit (s : Span) (x : Nat) : Nat := if s.Contains x then 1 else 0

/-- How many spans of the list contain the point. -/
def cover (spans : List Span) (x : Nat) : Nat := spans.countP fun s => s.Contains x

variable {s : Span}

lemma Span.hit_of_contains {x : Nat} (inside : s.Contains x) : s.hit x = 1 :=
  if_pos inside

lemma Span.hit_of_empty (empty : s.length = 0) (x : Nat) : s.hit x = 0 :=
  if_neg (by rintro ⟨_, _⟩; omega)

lemma Span.hit_split (first m n x : Nat) :
    Span.hit ⟨first, m + n⟩ x = Span.hit ⟨first, m⟩ x + Span.hit ⟨first + m, n⟩ x := by
  unfold hit Contains
  grind

@[simp] lemma cover_nil (x : Nat) : cover [] x = 0 := rfl

@[simp] lemma cover_cons (s : Span) (spans : List Span) (x : Nat) :
    cover (s :: spans) x = s.hit x + cover spans x := by
  simp only [cover, countP_cons, Span.hit, decide_eq_true_eq]
  omega

lemma cover_append (l m : List Span) (x : Nat) : cover (l ++ m) x = cover l x + cover m x :=
  countP_append

lemma cover_perm {l m : List Span} (same : l.Perm m) (x : Nat) : cover l x = cover m x :=
  same.countP_eq _

variable {spans : List Span}

lemma hit_le_cover (member : s ∈ spans) (x : Nat) : s.hit x ≤ cover spans x := by
  obtain ⟨-, -, rfl⟩ := append_of_mem member
  rw [cover_append, cover_cons]
  omega

variable {i : Nat}

lemma cover_set {old : Span} (there : spans[i]? = some old) (new : Span) (x : Nat) :
    cover (spans.set i new) x + old.hit x = cover spans x + new.hit x := by
  induction spans generalizing i with
  | nil => simp at there
  | cons first rest ih =>
    cases i with
    | zero =>
      cases Option.some.inj there
      simp only [set_cons_zero, cover_cons]
      omega
    | succ i =>
      have moved := ih there
      simp only [set_cons_succ, cover_cons]
      omega

lemma hit_add_hit_le_cover {j : Nat} {t : Span} (apart : i ≠ j) (first : spans[i]? = some s)
    (second : spans[j]? = some t) (x : Nat) : s.hit x + t.hit x ≤ cover spans x := by
  have emptied := cover_set first ⟨0, 0⟩ x
  have kept : (spans.set i ⟨0, 0⟩)[j]? = some t := by
    rw [getElem?_set_ne apart]
    exact second
  have below := hit_le_cover (mem_of_getElem? kept) x
  rw [Span.hit_of_empty (s := ⟨0, 0⟩) rfl] at emptied
  omega

lemma countP_set_add {α : Type} (p : α → Bool) {l : List α} {old : α} (there : l[i]? = some old)
    (new : α) : (l.set i new).countP p + (p old).toNat = l.countP p + (p new).toNat := by
  induction l generalizing i with
  | nil => simp at there
  | cons first rest ih =>
    cases i with
    | zero =>
      have same : first = old := Option.some.inj there
      simp only [set_cons_zero, countP_cons, same, Bool.toNat, Bool.cond_eq_ite]
      omega
    | succ i =>
      have moved := ih there
      simp only [set_cons_succ, countP_cons]
      omega

lemma pairwise_of_cover_le_one (single : ∀ x, cover spans x ≤ 1) :
    spans.Pairwise fun s t => ∀ x, ¬ (s.Contains x ∧ t.Contains x) := by
  induction spans with
  | nil => exact .nil
  | cons first rest ih =>
    refine pairwise_cons.mpr ⟨fun s member x both => ?_, ih fun x => ?_⟩
    · have counted := single x
      have first_hit := Span.hit_of_contains both.1
      have below := hit_le_cover member x
      have other_hit := Span.hit_of_contains both.2
      rw [cover_cons] at counted
      omega
    · have counted := single x
      rw [cover_cons] at counted
      omega

section LastIndex

variable {α : Type}

/-- The last position whose element meets the condition. -/
def lastIndex (p : α → Bool) : List α → Option Nat
  | [] => none
  | a :: rest =>
    match lastIndex p rest with
    | some i => some (i + 1)
    | none => if p a then some 0 else none

lemma lastIndex_eq_some {p : α → Bool} {l : List α} (found : lastIndex p l = some i) :
    ∃ a, l[i]? = some a ∧ p a := by
  induction l generalizing i with
  | nil => cases found
  | cons first rest ih =>
    simp only [lastIndex] at found
    split at found
    · rename_i j later
      cases found
      exact ih later
    split at found
    · rename_i meets
      cases found
      exact ⟨first, rfl, meets⟩
    · cases found

lemma lastIndex_eq_none {p : α → Bool} {l : List α} (found : lastIndex p l = none) :
    ∀ a ∈ l, p a = false := by
  induction l with
  | nil => exact fun a member => absurd member not_mem_nil
  | cons first rest ih =>
    simp only [lastIndex] at found
    split at found
    · cases found
    rename_i none_later
    split at found
    · cases found
    rename_i fails
    intro a member
    rcases mem_cons.mp member with rfl | later
    · exact Bool.eq_false_iff.mpr fails
    · exact ih none_later a later

end LastIndex

end SpanCover
