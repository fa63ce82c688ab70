import ColumnStore.ChainedTable

/-!
# Undoing changes of a chained table

A change is logged when replaying the records it added gives back the table as it was. Logged
changes compose, and undoing after a sequence of them restores the table the sequence began with.
A change that writes the header without a record of its own is logged for the buckets and slots
alone; one record of the header before such changes makes the whole sequence logged.
-/

namespace ChainedTable.Table

variable {K D X A : Type} {t t' t'' : Table K D X}

def restore (records : List (Image K D X)) (t : Table K D X) : Table K D X :=
  records.foldl apply t

lemma restore_append (newer older : List (Image K D X)) (t : Table K D X) :
    restore (newer ++ older) t = restore older (restore newer t) :=
  List.foldl_append

/-- Equal up to the undo records. -/
def SameStore (t t' : Table K D X) : Prop :=
  t.header = t'.header ∧ t.heads = t'.heads ∧ t.slots = t'.slots

lemma SameStore.apply (same : SameStore t t') (image : Image K D X) :
    SameStore (t.apply image) (t'.apply image) := by
  obtain ⟨header, heads, slots⟩ := same
  cases image <;> exact ⟨by simp [Table.apply, setHeader, setHead, setSlot, header],
    by simp [Table.apply, setHeader, setHead, setSlot, heads],
    by simp [Table.apply, setHeader, setHead, setSlot, slots]⟩

lemma SameStore.restore (same : SameStore t t') (records : List (Image K D X)) :
    SameStore (restore records t) (restore records t') := by
  induction records generalizing t t' with
  | nil => exact same
  | cons image records ih => exact ih (same.apply image)

/-- Equal up to the undo records and the header. -/
def SameBody (t t' : Table K D X) : Prop :=
  t.heads = t'.heads ∧ t.slots = t'.slots

lemma SameBody.apply (same : SameBody t t') (image : Image K D X) :
    SameBody (t.apply image) (t'.apply image) := by
  obtain ⟨heads, slots⟩ := same
  cases image <;> exact ⟨by simp [Table.apply, setHeader, setHead, setSlot, heads],
    by simp [Table.apply, setHeader, setHead, setSlot, slots]⟩

lemma SameBody.restore (same : SameBody t t') (records : List (Image K D X)) :
    SameBody (restore records t) (restore records t') := by
  induction records generalizing t t' with
  | nil => exact same
  | cons image records ih => exact ih (same.apply image)

/-- The records added on the way from `t` to `t'` restore `t`. -/
def Logged (t t' : Table K D X) : Prop :=
  ∃ records, t'.undo = records ++ t.undo ∧ SameStore (restore records t') t

/-- The records added on the way from `t` to `t'` restore the buckets and slots of `t`. -/
def LoggedBody (t t' : Table K D X) : Prop :=
  ∃ records, t'.undo = records ++ t.undo ∧ SameBody (restore records t') t

lemma Logged.refl (t : Table K D X) : Logged t t :=
  ⟨[], rfl, rfl, rfl, rfl⟩

lemma Logged.trans (first : Logged t t') (second : Logged t' t'') : Logged t t'' := by
  obtain ⟨older, undo, same⟩ := first
  obtain ⟨newer, undo', same'⟩ := second
  refine ⟨newer ++ older, by simp [undo', undo], ?_⟩
  rw [restore_append]
  obtain ⟨header, heads, slots⟩ := same'.restore older
  exact ⟨header.trans same.1, heads.trans same.2.1, slots.trans same.2.2⟩

lemma LoggedBody.refl (t : Table K D X) : LoggedBody t t :=
  ⟨[], rfl, rfl, rfl⟩

lemma LoggedBody.trans (first : LoggedBody t t') (second : LoggedBody t' t'') :
    LoggedBody t t'' := by
  obtain ⟨older, undo, same⟩ := first
  obtain ⟨newer, undo', same'⟩ := second
  refine ⟨newer ++ older, by simp [undo', undo], ?_⟩
  rw [restore_append]
  obtain ⟨heads, slots⟩ := same'.restore older
  exact ⟨heads.trans same.1, slots.trans same.2⟩

lemma Logged.body (logged : Logged t t') : LoggedBody t t' := by
  obtain ⟨records, undo, -, heads, slots⟩ := logged
  exact ⟨records, undo, heads, slots⟩

/-- Changes made after one record of the header need no further records of it. -/
lemma LoggedBody.after_header
    (logged : LoggedBody (t.makeUndoRecord (.header t.header)) t') : Logged t t' := by
  obtain ⟨records, undo, heads, slots⟩ := logged
  refine ⟨records ++ [.header t.header], by simpa [makeUndoRecord] using undo, ?_⟩
  rw [restore_append]
  exact ⟨rfl, heads, slots⟩

lemma Logged.undoChanges_eq (logged : Logged t t') (clean : t.undo = []) :
    t'.undoChanges = t := by
  obtain ⟨records, undo, header, heads, slots⟩ := logged
  cases t
  simp only [undoChanges, undo, restore] at header heads slots clean ⊢
  simp [header, heads, slots, clean]

lemma Logged.undoChanges (logged : Logged t t') : t'.undoChanges = t.undoChanges := by
  obtain ⟨records, undo, same⟩ := logged
  obtain ⟨header, heads, slots⟩ := same.restore t.undo
  rw [← restore_append, ← undo] at header heads slots
  simp only [restore] at header heads slots
  simp [Table.undoChanges, header, heads, slots]

/-- Undoing a change whose header is not recorded gives back all but the header. -/
lemma undoChanges_of_slots {records : List (Image K D X)} (clean : t.undo = [])
    (undo : t'.undo = records) (body : SameBody (restore records t') t)
    (header : (restore records t').header = t'.header) :
    t'.undoChanges = t.setHeader t'.header := by
  obtain ⟨heads, slots⟩ := body
  cases t
  cases clean
  subst undo
  simp only [restore] at header heads slots
  simp [Table.undoChanges, setHeader, header, heads, slots]

lemma undoChanges_of_stranded {u : Table K D X} (stranded : t.undo = u.strandedUndo) :
    t.undoChanges = t.confirmChanges := by
  have idle : ∀ (records : List (Image K D X)) (t : Table K D X),
      (records.map fun _ => (Image.stranded : Image K D X)).foldl apply t = t := by
    intro records t
    induction records with
    | nil => rfl
    | cons _ _ ih => exact ih
  rw [Table.undoChanges, stranded, strandedUndo, idle]
  rfl

section

variable (t)
include t

lemma loggedBody_setHeader (h : Header X) : LoggedBody t (t.setHeader h) :=
  ⟨[], rfl, rfl, rfl⟩

lemma logged_setSlot (i : Nat) (s : Slot K D) :
    Logged t ((t.makeUndoRecord (.slot i (t.slots i))).setSlot i s) :=
  ⟨[.slot i (t.slots i)], rfl, rfl, rfl, by simp [restore, Table.apply, setSlot, makeUndoRecord]⟩

lemma logged_setHead (b : Nat) (i : Option Nat) :
    Logged t ((t.makeUndoRecord (.head b (t.heads b))).setHead b i) :=
  ⟨[.head b (t.heads b)], rfl, rfl, by simp [restore, Table.apply, setHead, makeUndoRecord], rfl⟩

lemma logged_unlink (b : Nat) (prev : Option Nat) (i : Nat) : Logged t (t.unlink b prev i) := by
  cases prev with
  | none => exact (logged_setSlot t i _).trans (logged_setHead _ b _)
  | some p => exact (logged_setSlot t i _).trans (logged_setSlot _ p _)

lemma logged_place (low i b n : Nat) (k : K) (d : D) (h : Header X) :
    Logged t (((t.place false low i b k d).makeUndoRecord (.currentSize n)).setHeader h) := by
  refine LoggedBody.after_header ?_
  refine ⟨[.currentSize n, .head b (t.heads b), .slot i (t.slots i)], rfl, ?_, ?_⟩
  · simp [restore, Table.apply, setHead, setSlot, setHeader, makeUndoRecord]
  · simp [restore, Table.apply, place, setHead, setSlot, setHeader, makeUndoRecord]

lemma logged_discount_unlink (release : D → X → X) (b : Nat) (prev : Option Nat) (i j : Nat) :
    Logged t (((t.unlink b prev i).makeUndoRecord (.header (t.unlink b prev i).header)).discount
      release j) :=
  (logged_unlink t b prev i).trans (loggedBody_setHeader _ _).after_header

end

lemma loggedBody_removeKey [DecidableEq K] (release : D → X → X) (visit : D → A → A) (k : K)
    (b n : Nat) (prev start : Option Nat) (t : Table K D X) (a : A) :
    LoggedBody t (removeKey release visit k b n prev start (t, a)).1 := by
  induction n generalizing prev start t a with
  | zero => exact .refl t
  | succ n ih =>
    cases start with
    | none => exact .refl t
    | some i =>
      simp only [removeKey]
      split_ifs
      · exact ((logged_unlink t b prev i).body.trans (loggedBody_setHeader _ _)).trans
          (ih prev _ _ _)
      · exact ih (some i) _ t a

end ChainedTable.Table
