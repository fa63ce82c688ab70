import ColumnStore.ExtentLayout

/-!
# Placing the extents of a column

What the scans of `_createColumnExtent_DBroot` find, where the new extent goes, and the
runs of creations and `deletePartition`. The numbers of partitions and of segments are
incremented in 32 and 16 bits: the layout is kept as long as they do not wrap around.
-/

namespace ExtentMap

open OrderedTable ExtentIndex ColumnTypes Procedures Runs List Nat
open Meets (get_bind pure bind run_bind set)

lemma foldl_seen {α β : Type} {f : β → α → β} {h : List α → β → Prop} {b : β}
    (start : h [] b) (step : ∀ seen a b, h seen b → h (seen ++ [a]) (f b a))
    (l : List α) : h l (l.foldl f b) := by
  induction l using reverseRecOn with
  | nil => exact start
  | append_singleton seen a ih =>
    rw [foldl_append]
    exact step seen a _ ih

lemma forall_mem_snoc {α : Type} {p : α → Prop} {seen : List α} {a : α}
    (before : ∀ x ∈ seen, p x) (here : p a) : ∀ x ∈ seen ++ [a], p x :=
  forall_mem_append.mpr ⟨before, forall_mem_singleton.mpr here⟩

/-- The extent found is the last one in the order in which the column grows. -/
def IsLast (seen : List EMEntry) : Option EMEntry → Prop
  | none => seen = []
  | some last => last ∈ seen ∧ ∀ y ∈ seen, ¬ Precedes last y

lemma laterExtent_scan (own : List EMEntry) : IsLast own (own.foldl laterExtent none) := by
  refine foldl_seen (h := IsLast) (b := none) rfl ?_ own
  intro seen a found scanned
  cases found with
  | none =>
    have first : laterExtent none a = some a := by
      simp only [laterExtent, Option.map_none, Option.getD_none]
      rw [if_pos (by omega)]
    rw [first, scanned]
    refine ⟨mem_singleton_self a, fun y member => ?_⟩
    rw [mem_singleton.mp member]
    simp only [Precedes]
    omega
  | some last =>
    obtain ⟨inSeen, latest⟩ := scanned
    simp only [laterExtent, Option.map_some, Option.getD_some]
    split
    · refine ⟨by simp, forall_mem_snoc (fun y member before => ?_) ?_⟩
      · have notBefore := latest y member
        simp only [Precedes] at notBefore before
        omega
      · simp only [Precedes]
        omega
    · refine ⟨mem_append_left _ inSeen, forall_mem_snoc latest ?_⟩
      simp only [Precedes]
      omega

/-- The number found is the highest one from `start` on. -/
def IsHighest (start : Option Nat) (seen : List EMEntry) : Option Nat → Prop
  | none => start = none ∧ seen = []
  | some h => (∀ s, start = some s → s ≤ h) ∧ (∀ x ∈ seen, x.segmentNum ≤ h) ∧
      (start = some h ∨ ∃ x ∈ seen, x.segmentNum = h)

lemma higherSeg_scan (start : Option Nat) (l : List EMEntry) :
    IsHighest start l (l.foldl higherSeg start) := by
  refine foldl_seen ?_ ?_ l
  · cases start with
    | none => exact ⟨rfl, rfl⟩
    | some s => exact ⟨by rintro _ ⟨⟩; exact le_refl s, by simp, .inl rfl⟩
  intro seen a found scanned
  cases found with
  | none =>
    obtain ⟨rfl, rfl⟩ := scanned
    exact ⟨by simp, by simp, .inr ⟨a, by simp, rfl⟩⟩
  | some h =>
    obtain ⟨above, highest, attained⟩ := scanned
    by_cases higher : h < a.segmentNum
    · simp only [higherSeg, if_pos higher]
      refine ⟨fun s started => ?_, forall_mem_snoc (fun x member => ?_) (le_refl _),
        .inr ⟨a, by simp, rfl⟩⟩
      · exact le_trans (above s started) (le_of_lt higher)
      · exact le_trans (highest x member) (le_of_lt higher)
    · simp only [higherSeg, if_neg higher]
      refine ⟨above, forall_mem_snoc highest (Nat.le_of_not_lt higher),
        attained.imp_right fun ⟨x, member, same⟩ => ⟨x, mem_append_left _ member, same⟩⟩

lemma lt_nextFree {there : List EMEntry} {x : EMEntry} (member : x ∈ there)
    (narrow : ∀ y ∈ there, y.segmentNum + 1 < 2 ^ 16) :
    x.segmentNum < ((there.foldl higherSeg none).map nextSegment).getD 0 := by
  have highest := higherSeg_scan none there
  cases found : there.foldl higherSeg none with
  | none =>
    rw [found] at highest
    rw [highest.2] at member
    cases member
  | some h =>
    rw [found] at highest
    obtain ⟨_, highest, attained⟩ := highest
    obtain ⟨y, inY, same⟩ := attained.resolve_left nofun
    have narrowY := narrow y inY
    have atMost := highest x member
    rw [Option.map_some, Option.getD_some, nextSegment]
    omega

/-- `targetDbRootSegs` has the segment numbers of the extents, each with an offset that no extent
of the file is beyond. -/
lemma trackSeg_scan (seg offset : Nat) (own : List EMEntry) :
    (∀ s, s ∈ own.foldl trackSeg (AList.singleton seg offset) ↔
      s = seg ∨ ∃ x ∈ own, x.segmentNum = s) ∧
    ∀ x ∈ own, ∃ o, (own.foldl trackSeg (AList.singleton seg offset)).lookup x.segmentNum = some o ∧
      x.blockOffset ≤ o := by
  refine foldl_seen (h := fun seen (segs : TargetSegs) =>
    (∀ s, s ∈ segs ↔ s = seg ∨ ∃ x ∈ seen, x.segmentNum = s) ∧
      ∀ x ∈ seen, ∃ o, segs.lookup x.segmentNum = some o ∧ x.blockOffset ≤ o) ?_ ?_ own
  · simp [AList.mem_keys, AList.keys_singleton]
  rintro seen a segs ⟨known, bounded⟩
  have extended : ∀ s, s = a.segmentNum ∨ s ∈ segs ↔
      s = seg ∨ ∃ x ∈ seen ++ [a], x.segmentNum = s := by
    grind
  -- an insertion of the offset of `a` keeps the bounds of the other files
  have inserted : (∀ o, segs.lookup a.segmentNum = some o → o ≤ a.blockOffset) →
      ∀ x ∈ seen ++ [a], ∃ o,
        (segs.insert a.segmentNum a.blockOffset).lookup x.segmentNum = some o ∧
        x.blockOffset ≤ o := by
    intro lower
    refine forall_mem_snoc (fun x member => ?_) ⟨_, AList.lookup_insert _, le_refl _⟩
    obtain ⟨o, there, below⟩ := bounded x member
    by_cases same : x.segmentNum = a.segmentNum
    · rw [same] at there ⊢
      exact ⟨_, AList.lookup_insert _, le_trans below (lower o there)⟩
    · exact ⟨o, by rw [AList.lookup_insert_ne same, there], below⟩
  cases found : segs.lookup a.segmentNum with
  | none =>
    simp only [trackSeg, found]
    exact ⟨fun s => AList.mem_insert _ |>.trans (extended s), inserted (by simp [found])⟩
  | some o =>
    by_cases higher : o < a.blockOffset
    · simp only [trackSeg, found, if_pos higher]
      refine ⟨fun s => AList.mem_insert _ |>.trans (extended s), inserted ?_⟩
      rw [found]
      rintro _ ⟨⟩
      exact le_of_lt higher
    simp only [trackSeg, found, if_neg higher]
    refine ⟨fun s => Iff.trans ⟨.inr, ?_⟩ (extended s),
      forall_mem_snoc bounded ⟨o, found, Nat.le_of_not_lt higher⟩⟩
    rintro (rfl | there)
    · exact AList.lookup_isSome.mp (by rw [found]; rfl)
    · exact there

section Bounds

variable (lastSeg : Nat) (segs : List Nat)

/-- The bounds `firstTargetSeg`, `lastTargetSeg` and `nextTargetSeg` of the files. -/
def segBounds : SegBounds := segs.foldl (SegBounds.visit lastSeg) ⟨lastSeg, lastSeg, none⟩

/-- What the bounds are for the numbers seen. -/
structure SegBounds.Bound (seen : List Nat) (b : SegBounds) : Prop where
  first : b.first = lastSeg ∨ b.first ∈ seen
  last : b.last = lastSeg ∨ b.last ∈ seen
  around : b.first ≤ lastSeg ∧ lastSeg ≤ b.last
  within : ∀ s ∈ seen, b.first ≤ s ∧ s ≤ b.last
  next : ∀ n, b.next = some n → n ∈ seen ∧ lastSeg < n
  nearest : ∀ s ∈ seen, lastSeg < s → ∃ n, b.next = some n ∧ n ≤ s

lemma segBounds_bound : SegBounds.Bound lastSeg segs (segBounds lastSeg segs) := by
  refine foldl_seen ⟨.inl rfl, .inl rfl, ⟨le_refl _, le_refl _⟩, nofun, nofun, nofun⟩ ?_ segs
  rintro seen - ⟨first, last, next⟩ ⟨inFirst, inLast, around, within, isNext, nearest⟩
  -- a number below the first is not compared with the last: it is below that one too
  constructor <;> simp only [SegBounds.visit] <;> grind

end Bounds

lemma extentSize_eq (colWidth : Nat) : extentSize colWidth = colWidth % 512 * 1024 := by
  simp only [extentSize, getExtentRows, blockSize]
  omega

/-- What the scans for the last extent of a DBRoot and for its partition have read. -/
structure Scanned (extents : List EMEntry) (last : EMEntry) (own others othersNext : List EMEntry) :
    Prop where
  inLast : last ∈ extents
  latest : Latest extents last
  ownAll : ∀ x, x ∈ own ↔ x ∈ extents ∧ SameGroup last x
  othersAll : ∀ x ∈ extents, x.fileID = last.fileID → x.dbRoot ≠ last.dbRoot →
    x.partitionNum = last.partitionNum → x ∈ others
  nextAll : ∀ x ∈ extents, x.fileID = last.fileID → x.dbRoot ≠ last.dbRoot →
    x.partitionNum = nextPartition last.partitionNum → x ∈ othersNext
  othersOf : ∀ x ∈ others, x ∈ extents ∧ x.fileID = last.fileID
  nextOf : ∀ x ∈ othersNext, x ∈ extents ∧ x.fileID = last.fileID

variable {dbRoots : List Nat}

section Place

variable {cfg : Config} {colWidth : Nat} {extents own others othersNext : List EMEntry}
  {last e : EMEntry}

lemma Scanned.inOwn (scanned : Scanned extents last own others othersNext) :
    last ∈ own :=
  (scanned.ownAll last).mpr ⟨scanned.inLast, ⟨rfl, rfl, rfl⟩⟩

lemma Scanned.mem_keys (scanned : Scanned extents last own others othersNext) (seg : Nat) :
    seg ∈ (scanPartition last own others othersNext).targetSegs.keys ↔
      ∃ x ∈ own, x.segmentNum = seg := by
  refine ((trackSeg_scan last.segmentNum last.blockOffset own).1 seg).trans ⟨?_, .inr⟩
  rintro (rfl | found)
  · exact ⟨last, scanned.inOwn, rfl⟩
  · exact found

lemma flat_of_targetSegs
    (flat :
      ¬ (scanPartition last own others othersNext).targetSegs.entries.any (fun e => 0 < e.2)) :
    ∀ x ∈ own, x.blockOffset = 0 := by
  intro x inOwn
  obtain ⟨o, there, below⟩ := (trackSeg_scan last.segmentNum last.blockOffset own).2 x inOwn
  have zero : ¬ 0 < o := fun positive => flat
    (any_eq_true.mpr ⟨_, AList.mem_lookup_iff.mp there, decide_eq_true positive⟩)
  omega

variable (scanned : Scanned extents last own others othersNext)
  (fileID : last.fileID = e.fileID) (dbRoot : last.dbRoot = e.dbRoot)
  (uniform : ∀ x ∈ extents, x.fileID = e.fileID → x.range.size = e.range.size)

include scanned fileID dbRoot uniform

section KnownFile

variable (laid : Laid dbRoots extents) (part : last.partitionNum = e.partitionNum)

include laid part

/-- Wrap-around: the first file begins the next stripe. -/
lemma Scanned.nextStripe {segs : List Nat}
    (keys : ∀ seg, seg ∈ segs ↔ ∃ x ∈ own, x.segmentNum = seg)
    (sized : e.range.size = extentSize colWidth / 1024) (positive : e.range.size ≠ 0)
    (atLast : last.segmentNum = (segBounds last.segmentNum segs).last)
    (room : last.blockOffset ≠ (getExtentsPerSegmentFile - 1) * extentSize colWidth % 2 ^ 32)
    (seg : (segBounds last.segmentNum segs).first = e.segmentNum)
    (offset : (last.range.size * 1024 + last.blockOffset) % 2 ^ 32 = e.blockOffset) :
    Fits extents e ∧ Precedes last e := by
  have group : SameGroup last e := ⟨fileID, dbRoot, part⟩
  have lastSize := uniform last scanned.inLast fileID
  have width := extentSize_eq colWidth
  have blocks : last.blocks = extentSize colWidth := by
    simp only [EMEntry.blocks]
    omega
  have exact : e.blockOffset = last.blockOffset + last.blocks := by
    obtain ⟨k, below, atK⟩ := laid.counted last scanned.inLast
    rcases le_one_iff_eq_zero_or_eq_one.mp (le_of_lt_succ below) with rfl | rfl <;> omega
  have inSegs : ∀ y ∈ extents, SameGroup last y → y.segmentNum ∈ segs := fun y inY groupY =>
    (keys _).mpr ⟨y, (scanned.ownAll y).mpr ⟨inY, groupY⟩, rfl⟩
  have bounds := segBounds_bound last.segmentNum segs
  obtain ⟨known, inKnown, file⟩ : ∃ x ∈ extents, SameFile x e := by
    rcases bounds.first with same | listed
    · exact ⟨last, scanned.inLast, ⟨group, same.symm.trans seg⟩⟩
    · obtain ⟨x, inOwn, same⟩ := (keys _).mp listed
      obtain ⟨inX, groupX⟩ := (scanned.ownAll x).mp inOwn
      exact ⟨x, inX, ⟨groupX.symm.trans group, same.trans seg⟩⟩
  refine ⟨Fits.nextStripe laid scanned.inLast scanned.latest group inKnown file uniform positive
    (fun y inY groupY => ?_) (fun y inY groupY => ?_) exact ?_, .inr ⟨part, .inl ?_⟩⟩
  · rw [atLast]
    exact (bounds.within _ (inSegs y inY groupY)).2
  · rw [← seg]
    exact (bounds.within _ (inSegs y inY groupY)).1
  · rw [blocks]
    omega
  · omega

/-- The file after that of the last extent continues the stripe. -/
lemma Scanned.sameStripe {segs : List Nat}
    (keys : ∀ seg, seg ∈ segs ↔ ∃ x ∈ own, x.segmentNum = seg)
    (notLast : last.segmentNum ≠ (segBounds last.segmentNum segs).last)
    (seg : (segBounds last.segmentNum segs).next.getD last.segmentNum = e.segmentNum)
    (offset : e.blockOffset = last.blockOffset) : Fits extents e ∧ Precedes last e := by
  have group : SameGroup last e := ⟨fileID, dbRoot, part⟩
  have bounds := segBounds_bound last.segmentNum segs
  have above := bounds.around.2
  obtain ⟨n, found, -⟩ := bounds.nearest _ (bounds.last.resolve_left notLast.symm) (by omega)
  rw [found] at seg
  subst seg
  obtain ⟨listed, beyond⟩ := bounds.next _ found
  obtain ⟨known, inOwn, same⟩ := (keys _).mp listed
  obtain ⟨inKnown, groupKnown⟩ := (scanned.ownAll known).mp inOwn
  refine ⟨Fits.sameStripe laid scanned.inLast scanned.latest group inKnown
    ⟨groupKnown.symm.trans group, same⟩ uniform offset beyond fun y inY groupY beyondY => ?_,
    .inr ⟨part, .inr ⟨offset.symm, beyond⟩⟩⟩
  obtain ⟨m, found', nearest⟩ :=
    bounds.nearest _ ((keys _).mpr ⟨y, (scanned.ownAll y).mpr ⟨inY, groupY⟩, rfl⟩) beyondY
  cases found.symm.trans found'
  exact nearest

end KnownFile

variable (narrow : ∀ x ∈ extents, x.fileID = e.fileID → x.segmentNum + 1 < 2 ^ 16)

include narrow

lemma Scanned.newPartition (low : last.partitionNum + 1 < 2 ^ 32)
    (placed : newPartitionPlace last (scanPartition last own others othersNext) =
      ⟨e.partitionNum, e.segmentNum, e.blockOffset⟩) : Fits extents e ∧ Precedes last e := by
  simp only [newPartitionPlace, Place.mk.injEq, nextPartition] at placed
  obtain ⟨part, seg, bottom⟩ := placed
  -- the DBRoot has nothing in the next partition
  have elsewhere : ∀ x ∈ extents, x.fileID = e.fileID → x.partitionNum = e.partitionNum →
      x.dbRoot ≠ last.dbRoot := by
    intro x inX file partX root
    exact scanned.latest x inX (file.trans fileID.symm) root (.inl (by omega))
  refine ⟨Fits.newFile bottom.symm uniform (fun x inX file partX => ?_) fun x inX group => ?_,
    .inl (by omega)⟩
  · have inNext := scanned.nextAll x inX (file.trans fileID.symm) (elsewhere x inX file partX)
      (by rw [partX, ← part, nextPartition, mod_eq_of_lt low])
    rw [← seg]
    refine lt_nextFree inNext fun y inY => ?_
    obtain ⟨inY, fileY⟩ := scanned.nextOf y inY
    exact narrow y inY (fileY.trans fileID)
  · exact absurd (group.dbRoot.trans dbRoot.symm)
      (elsewhere x inX group.fileID group.partitionNum)

/-- No extent of the partition is above the first stripe, and the file is a new one. -/
lemma Scanned.newSegment (flat : ∀ x ∈ own, x.blockOffset = 0)
    (part : last.partitionNum = e.partitionNum)
    (seg : nextSegment (scanPartition last own others othersNext).partHighSeg = e.segmentNum)
    (bottom : e.blockOffset = 0) : Fits extents e ∧ Precedes last e := by
  have highest := higherSeg_scan (some last.segmentNum) (own ++ others)
  rcases found : (own ++ others).foldl higherSeg (some last.segmentNum) with _ | h
  · rw [found] at highest
    cases highest.1
  rw [found] at highest
  obtain ⟨above, highest, attained⟩ := highest
  have narrowH : h + 1 < 2 ^ 16 := by
    rcases attained with same | ⟨x, inX, same⟩
    · cases same
      exact narrow last scanned.inLast fileID
    rw [← same]
    rcases mem_append.mp inX with inOwn | inOthers
    · obtain ⟨inX, group⟩ := (scanned.ownAll x).mp inOwn
      exact narrow x inX (group.fileID.symm.trans fileID)
    · obtain ⟨inX, file⟩ := scanned.othersOf x inOthers
      exact narrow x inX (file.trans fileID)
  have segIs : e.segmentNum = h + 1 := by
    rw [← seg, scanPartition, found, Option.getD_some, nextSegment, mod_eq_of_lt narrowH]
  have lastBelow := above last.segmentNum rfl
  have inOwn : ∀ x ∈ extents, SameGroup x e → x ∈ own := fun x inX group =>
    (scanned.ownAll x).mpr ⟨inX, ⟨fileID.trans group.fileID.symm, dbRoot.trans group.dbRoot.symm,
      part.trans group.partitionNum.symm⟩⟩
  refine ⟨Fits.newFile bottom uniform (fun x inX file partX => ?_)
    fun x inX group => flat x (inOwn x inX group), ?_⟩
  · have listed : x ∈ own ++ others := by
      by_cases root : x.dbRoot = last.dbRoot
      · exact mem_append_left _ (inOwn x inX ⟨file, root.trans dbRoot, partX⟩)
      · exact mem_append_right _
          (scanned.othersAll x inX (file.trans fileID.symm) root (partX.trans part.symm))
    have atMost := highest x listed
    omega
  · have lastFlat := flat last ((scanned.ownAll last).mpr ⟨scanned.inLast, ⟨rfl, rfl, rfl⟩⟩)
    exact .inr ⟨part, .inr ⟨by omega, by omega⟩⟩

lemma Scanned.nextPlace_fits (laid : Laid dbRoots extents)
    (sized : e.range.size = extentSize colWidth / 1024) (positive : e.range.size ≠ 0)
    (low : last.partitionNum + 1 < 2 ^ 32)
    (placed : nextPlace cfg colWidth last (scanPartition last own others othersNext) =
      ⟨e.partitionNum, e.segmentNum, e.blockOffset⟩) : Fits extents e ∧ Precedes last e := by
  have keys := scanned.mem_keys
  unfold nextPlace at placed
  extract_lets filesPerDBRootPerPartition segs bounds fileCount nextSeg highSeg at placed
  split at placed
  · exact scanned.newPartition fileID dbRoot uniform narrow low placed
  rename_i inService
  split at placed
  · split at placed
    · rename_i atLast
      split at placed
      · exact scanned.newPartition fileID dbRoot uniform narrow low placed
      rename_i room
      obtain ⟨part, seg, offset⟩ := Place.mk.inj placed
      exact scanned.nextStripe fileID dbRoot uniform laid part keys sized positive atLast room seg
        offset
    · rename_i notLast
      obtain ⟨part, seg, offset⟩ := Place.mk.inj placed
      refine scanned.sameStripe fileID dbRoot uniform laid part keys notLast seg ?_
      split at offset <;> omega
  rename_i few
  obtain ⟨part, seg, offset⟩ := Place.mk.inj placed
  have flat := flat_of_targetSegs fun positive => inService (.inr ⟨Nat.lt_of_not_le few, positive⟩)
  have lastFlat := flat last scanned.inOwn
  refine scanned.newSegment fileID dbRoot uniform narrow flat part seg ?_
  split at offset <;> omega

end Place

section Choose

variable {cfg : Config} {em : EM} {oid : Int} {colWidth dbRoot partitionNum : Nat} {e : EMEntry}

lemma entriesAt_partition (indexed : Indexed em.tree.entries em.index) (roots : List Nat)
    (oid : Int) (partition : Nat) :
    ∃ entries, entriesAt em (roots.map (⟨·, oid, partition⟩)) = some entries ∧
      ∀ x, x ∈ entries ↔
        x ∈ em.image ∧ x.fileID = oid ∧ x.dbRoot ∈ roots ∧ x.partitionNum = partition := by
  obtain ⟨entries, found, listed⟩ := entriesAt_eq indexed (roots.map (⟨·, oid, partition⟩))
  refine ⟨entries, found, fun x => (listed x).trans ?_⟩
  rw [mem_image]
  refine and_congr_right fun _ => ?_
  simp only [EMEntry.indexKey, mem_map, IndexKey.mk.injEq]
  constructor
  · rintro ⟨-, inRoots, rfl, rfl, rfl⟩
    exact ⟨rfl, inRoots, rfl⟩
  · rintro ⟨rfl, inRoots, rfl⟩
    exact ⟨_, inRoots, rfl, rfl, rfl⟩

/-- The place chosen continues the layout, after all extents the column has on the DBRoot. -/
lemma choosePlace_fits (indexed : Indexed em.tree.entries em.index)
    (laid : Laid cfg.dbRoots em.image) (inList : dbRoot ∈ cfg.dbRoots)
    (isFile : e.fileID = oid) (isRoot : e.dbRoot = dbRoot)
    (sized : e.range.size = extentSize colWidth / 1024) (positive : e.range.size ≠ 0)
    (uniform : ∀ x ∈ em.image, x.fileID = oid → x.range.size = e.range.size)
    (narrow : ∀ x ∈ em.image, x.fileID = oid → x.segmentNum + 1 < 2 ^ 16)
    (low : ∀ x ∈ em.image, x.fileID = oid → x.dbRoot = dbRoot → x.partitionNum + 1 < 2 ^ 32)
    (chosen : choosePlace cfg em oid colWidth dbRoot partitionNum =
      some ⟨e.partitionNum, e.segmentNum, e.blockOffset⟩) :
    Fits em.image e ∧ ∀ y ∈ em.image, y.fileID = oid → y.dbRoot = dbRoot → Precedes y e := by
  subst isFile isRoot
  obtain ⟨own, foundOwn, inOwn⟩ := entriesOfOID_eq indexed e.dbRoot e.fileID
  have listed : ∀ x, x ∈ own ↔ x ∈ em.image ∧ x.dbRoot = e.dbRoot ∧ x.fileID = e.fileID := by
    simpa only [mem_image] using inOwn
  have rootListed : ∀ x ∈ em.image, x.dbRoot ≠ e.dbRoot →
      x.dbRoot ∈ cfg.dbRoots.filter (· ≠ e.dbRoot) := fun x inX other =>
    mem_filter.mpr ⟨laid.rooted x inX, decide_eq_true other⟩
  simp only [choosePlace, foundOwn, Option.bind_eq_bind, Option.bind_some] at chosen
  have scan := laterExtent_scan own
  split at chosen
  · -- the DBRoot has no extent of the column
    rename_i nothing
    rw [nothing] at scan
    have empty : ∀ x ∈ em.image, x.fileID = e.fileID → x.dbRoot ≠ e.dbRoot := by
      intro x inX file root
      have member := (listed x).mpr ⟨inX, root, file⟩
      rw [show own = [] from scan] at member
      cases member
    obtain ⟨there, found, inThere⟩ := entriesAt_partition indexed
      (cfg.dbRoots.filter (· ≠ e.dbRoot)) e.fileID partitionNum
    rw [found] at chosen
    obtain ⟨part, seg, bottom⟩ := Place.mk.inj (Option.some.inj chosen)
    refine ⟨Fits.newFile bottom.symm uniform (fun x inX file partX => ?_) fun x inX group =>
      absurd group.dbRoot (empty x inX group.fileID), fun y inY file root =>
      absurd root (empty y inY file)⟩
    have member := (inThere x).mpr ⟨inX, file, rootListed x inX (empty x inX file),
      partX.trans part.symm⟩
    rw [← seg]
    refine lt_nextFree member fun y inY => ?_
    obtain ⟨inY, fileY, _⟩ := (inThere y).mp inY
    exact narrow y inY fileY
  rename_i last found
  rw [found] at scan
  obtain ⟨inOwnLast, latest⟩ := scan
  obtain ⟨inLast, lastRoot, lastFile⟩ := (listed last).mp inOwnLast
  obtain ⟨ownLast, foundLast, inOwnLast⟩ := entriesAt_partition indexed
    (cfg.dbRoots.filter (· = e.dbRoot)) e.fileID last.partitionNum
  obtain ⟨othersNext, foundNext, inNext⟩ := entriesAt_partition indexed
    (cfg.dbRoots.filter (· ≠ e.dbRoot)) e.fileID (nextPartition last.partitionNum)
  obtain ⟨othersLast, foundOthers, inOthers⟩ := entriesAt_partition indexed
    (cfg.dbRoots.filter (· ≠ e.dbRoot)) e.fileID last.partitionNum
  rw [foundLast, foundNext, foundOthers] at chosen
  have scanned : Scanned em.image last ownLast othersLast othersNext := by
    refine ⟨inLast, fun y inY file root => ?_, fun x => ?_, fun x inX file root part => ?_,
      fun x inX file root part => ?_, fun x inX => ?_, fun x inX => ?_⟩
    · exact latest y ((listed y).mpr ⟨inY, root.trans lastRoot, file.trans lastFile⟩)
    · rw [inOwnLast]
      refine and_congr_right fun _ => ?_
      simp only [mem_filter, decide_eq_true_eq]
      constructor
      · rintro ⟨file, ⟨_, root⟩, part⟩
        exact ⟨lastFile.trans file.symm, lastRoot.trans root.symm, part.symm⟩
      · rintro ⟨file, root, part⟩
        have isRoot := root.symm.trans lastRoot
        exact ⟨file.symm.trans lastFile, ⟨isRoot ▸ inList, isRoot⟩, part.symm⟩
    · exact (inOthers x).mpr ⟨inX, file.trans lastFile, rootListed x inX (lastRoot ▸ root), part⟩
    · exact (inNext x).mpr ⟨inX, file.trans lastFile, rootListed x inX (lastRoot ▸ root), part⟩
    · obtain ⟨inX, file, _⟩ := (inOthers x).mp inX
      exact ⟨inX, file.trans lastFile.symm⟩
    · obtain ⟨inX, file, _⟩ := (inNext x).mp inX
      exact ⟨inX, file.trans lastFile.symm⟩
  obtain ⟨fits, later⟩ := scanned.nextPlace_fits lastFile lastRoot uniform narrow laid
    sized positive
    (low last inLast lastFile lastRoot) (Option.some.inj chosen)
  refine ⟨fits, fun y inY file root => later.of_not_before ?_⟩
  exact latest y ((listed y).mpr ⟨inY, root, file⟩)

end Choose

/-- A creation names a listed DBRoot and the width the column has, and the numbers it increments
do not wrap around. -/
def Placing (cfg : Config) (em : EM) : Command → Prop
  | .createColumnExtentDBroot oid colWidth dbRoot _ _ =>
    extentSize colWidth / 1024 ≠ 0 ∧ dbRoot ∈ cfg.dbRoots ∧
      ∀ x ∈ em.image, x.fileID = oid → x.range.size = extentSize colWidth / 1024 ∧
        x.segmentNum + 1 < 2 ^ 16 ∧ (x.dbRoot = dbRoot → x.partitionNum + 1 < 2 ^ 32)
  | .deletePartition _ _ => True
  | _ => False

instance (cfg : Config) (em : EM) (c : Command) : Decidable (Placing cfg em c) :=
  match c with
  | .createColumnExtentDBroot .. => instDecidableAnd
  | .deletePartition _ _ => .isTrue trivial
  | .createStripeColumnExtents .. | .createColumnExtentExactFile .. | .createDictStoreExtent ..
  | .deleteOID _ | .deleteOIDs _ | .deleteDBRoot _ | .rollbackColumnExtentsDBroot ..
  | .rollbackDictStoreExtentsDBroot .. | .deleteEmptyColExtents _ | .deleteEmptyDictStoreExtents _
  | .bulkUpdateDBRoot _ | .growFLShmseg | .load _ | .reload => .isFalse id

/-- An extent that is new comes after all extents its column has on its DBRoot. -/
def Appended (old new : EM) : Prop :=
  ∀ x ∈ new.image, x ∉ old.image →
    ∀ y ∈ old.image, y.fileID = x.fileID → y.dbRoot = x.dbRoot → Precedes y x

variable {em em' : EM}

lemma image_of_tree (same : em'.tree = em.tree) : em'.image = em.image := by
  rw [EM.image, same, EM.image]

lemma getLBIDs_tree {size : Nat} {tree : Tree} :
    Meets (fun em => em.tree = tree) (getLBIDsFromFreeList size) (fun _ em => em.tree = tree)
      fun em => em.tree = tree := by
  refine get_bind fun em same => ?_
  cases em.freeList.getLBIDsFromFreeList size with
  | none => exact Meets.throw fun _ here => here ▸ same
  | some result =>
    refine Meets.set_bind (pure fun _ here => ?_)
    subst here
    exact same

variable {cfg : Config} {oid : Int}

lemma createColumnExtentDBroot_places {colWidth dbRoot partitionNum : Nat}
    {colDataType : ColDataType} (good : Good em)
    (laid : Laid cfg.dbRoots em.image)
    (placing : Placing cfg em
      (.createColumnExtentDBroot oid colWidth dbRoot colDataType partitionNum)) :
    Meets (· = em) (createColumnExtentDBroot cfg oid colWidth dbRoot colDataType partitionNum)
      (fun _ em' => Laid cfg.dbRoots em'.image ∧ Appended em em')
      fun em' => Laid cfg.dbRoots em'.image ∧ Appended em em' := by
  obtain ⟨positive, inList, extents⟩ := placing
  have unchanged : ∀ em', em'.tree = em.tree →
      Laid cfg.dbRoots em'.image ∧ Appended em em' := by
    intro em' same
    rw [Appended, image_of_tree same]
    exact ⟨laid, fun x inX new => absurd inX new⟩
  refine bind ((((getLBIDs_meets positive).and getLBIDs_tree).start ⟨good, rfl⟩).weaken
    (fun _ h => h) (fun _ _ h => h) fun em' h => unchanged em' h.2) fun lbid => ?_
  refine get_bind fun em' ⟨⟨spaced, indexed⟩, same⟩ => ?_
  obtain ⟨place, found⟩ := choosePlace_isSome indexed cfg oid colWidth dbRoot partitionNum
  rw [found]
  refine run_bind rfl (bind (get_bind fun _ here => set ?_)
    fun _ => pure fun _ h => h)
  cases here
  have images := image_of_tree same
  obtain ⟨e, isE⟩ : ∃ e, e = columnEntry lbid (extentSize colWidth / 1024) oid colWidth dbRoot
    colDataType place := ⟨_, rfl⟩
  rw [← isE]
  have listed : ∀ x, x ∈ (em'.withExtent e).image ↔ x ∈ e :: em.image := by
    intro x
    have fresh : ∀ y ∈ em'.tree.entries, y.1 ≠ e.range.start := by
      rw [isE]
      exact spaced.fresh
    rw [← images]
    exact ((Table.insert_perm e fresh).map (·.2)).mem_iff
  obtain ⟨fits, later⟩ : Fits em.image e ∧ ∀ y ∈ em.image, y.fileID = oid → y.dbRoot = dbRoot →
      Precedes y e := by
    rw [← images] at laid extents ⊢
    subst isE
    exact choosePlace_fits indexed laid inList rfl rfl rfl positive
      (fun x inX file => (extents x inX file).1) (fun x inX file => (extents x inX file).2.1)
      (fun x inX file root => (extents x inX file).2.2 root) found
  have isRoot : e.dbRoot = dbRoot := by rw [isE]; rfl
  have isFile : e.fileID = oid := by rw [isE]; rfl
  refine ⟨(laid.cons fits (isRoot ▸ inList)).congr listed, fun x inX new y inY file root => ?_⟩
  rcases mem_cons.mp ((listed x).mp inX) with rfl | old
  · exact later y inY (file.trans isFile) (root.trans isRoot)
  · exact absurd old new

/-- The extents of one segment file. -/
def InFile (oid : Int) (partition : LogicalPartition) (x : EMEntry) : Prop :=
  x.indexKey = ⟨partition.dbroot, oid, partition.pp⟩ ∧ x.segmentNum = partition.seg

lemma deleteSegment_drops {partition : LogicalPartition} {found : List LogicalPartition}
    (good : Good em) :
    Meets (· = em) (deleteSegment oid partition found)
      (fun _ em' => Good em' ∧ ∀ x, x ∈ em'.tree.entries ↔
        x ∈ em.tree.entries ∧ ¬ InFile oid partition x.2) fun _ => False := by
  refine get_bind fun _ here => ?_
  cases here
  have visits := good.indexed.find_visits ⟨partition.dbroot, oid, partition.pp⟩
  refine run_bind (iterators_run visits) ?_
  -- an extent of the file is in the tree exactly while it is still to be visited
  refine (Meets.foldlM (h := fun rest (em' : EM) => Good em' ∧ Visits rest em'.tree ∧
    (∀ x, x ∈ em'.tree.entries ↔ x ∈ em.tree.entries ∧ (x.1 ∈ rest ∨ ¬ InFile oid partition x.2)) ∧
    ∀ key ∈ rest, key ∈ em.index.find ⟨partition.dbroot, oid, partition.pp⟩)
    fun found key rest => get_bind fun em' ⟨good', visits', left, ofPartition⟩ => ?_).weaken
    ?_ (fun _ em' h => ⟨h.1, fun x => by simpa using h.2.2.1 x⟩) fun _ h => h
  · obtain ⟨e, member⟩ := visits'.present key mem_cons_self
    have atKey : ∀ x ∈ em.tree.entries, x.1 = key → x.2 = e := by
      rintro ⟨_, x⟩ inTree rfl
      exact em.tree.value_unique inTree ((left _).mp member).1
    have later := fun k inRest => ofPartition k (.tail _ inRest)
    rw [Table.find?_eq_some.mpr member]
    refine run_bind rfl ?_
    split
    · rename_i otherFile
      refine pure fun _ here => ?_
      subst here
      refine ⟨good', visits'.tail,
        fun x => (left x).trans (and_congr_right fun inTree => ?_), later⟩
      rw [mem_cons, or_assoc, or_iff_right_of_imp]
      rintro same
      rw [atKey x inTree same]
      exact .inr fun inFile => otherFile inFile.2
    rename_i ofFile
    obtain ⟨e', inTree', ofKey⟩ := (good.indexed.names _ _).mp (ofPartition key mem_cons_self)
    have inFile : InFile oid partition e :=
      ⟨atKey _ inTree' rfl ▸ ofKey, Classical.not_not.mp ofFile⟩
    refine bind ((deleteExtent_meets (p := (· = em'.tree)) (q := (· = em'.tree.erase key))
      fun _ h => h ▸ rfl).start ⟨good', visits', rfl⟩) fun _ => pure ?_
    rintro em'' ⟨good'', visits'', erased⟩
    refine ⟨good'', visits'', fun x => ?_, later⟩
    rw [erased, Table.mem_erase, left, and_assoc]
    refine and_congr_right fun inTree => ?_
    by_cases same : x.1 = key
    · have notLater := (nodup_cons.mp visits'.nodup).1
      rw [atKey x inTree same, same]
      simp [inFile, notLater]
    · simp [same]
  · rintro _ rfl
    refine ⟨good, visits, fun x => ⟨fun inTree => ⟨inTree, ?_⟩, fun h => h.1⟩, fun _ h => h⟩
    refine (Classical.em (InFile oid partition x.2)).imp_left fun inFile => ?_
    exact (good.indexed.names _ _).mpr ⟨x.2, inTree, inFile.1⟩

lemma deletePartition_places (oids : List Int) (partitionNums : List LogicalPartition)
    (good : Good em) (laid : Laid dbRoots em.image) :
    Meets (· = em) (deletePartition oids partitionNums)
      (fun _ em' => Laid dbRoots em'.image ∧ Appended em em')
      fun em' => Laid dbRoots em'.image ∧ Appended em em' := by
  have segment : ∀ oid partition found, Keeps (fun em' : EM => Good em' ∧ Laid dbRoots em'.image ∧
      ∀ x ∈ em'.image, x ∈ em.image) (deleteSegment oid partition found) := by
    rintro oid partition found em' ⟨good', laid', old⟩
    refine (deleteSegment_drops good').weaken (fun _ h => h) ?_ (fun _ => False.elim) em' rfl
    rintro _ em'' ⟨good'', left⟩
    have images (x) : x ∈ em''.image ↔ x ∈ em'.image ∧ ¬ InFile oid partition x := by
      simp [mem_image, left]
    refine ⟨good'', laid'.filter (fun x y file outside inFile => outside ?_) images,
      fun x inX => old x ((images x).mp inX).1⟩
    refine ⟨?_, file.segmentNum.trans inFile.2⟩
    rw [← inFile.1, EMEntry.indexKey, file.dbRoot, file.fileID, file.partitionNum, EMEntry.indexKey]
  have keeps : Keeps (fun em' : EM => Good em' ∧ Laid dbRoots em'.image ∧
      ∀ x ∈ em'.image, x ∈ em.image) (deletePartition oids partitionNums) := by
    unfold deletePartition
    split
    · exact Keeps.pure
    refine Keeps.bind (Keeps.foldlM fun _ _ _ => Keeps.foldlM fun _ _ _ => segment _ _ _)
      fun found => ?_
    split
    · exact Keeps.throw
    · split
      · exact Keeps.throw
      · exact Keeps.pure
  refine (Meets.start keeps ⟨good, laid, fun _ h => h⟩).weaken (fun _ h => h) (fun _ _ h => ?_)
    fun _ h => ?_ <;> exact ⟨h.2.1, fun x inX new => absurd (h.2.2 x inX) new⟩

lemma step_places {c : Command} (good : Good em) (laid : Laid cfg.dbRoots em.image)
    (placing : Placing cfg em c) (taken : step cfg em c = some em') :
    Laid cfg.dbRoots em'.image ∧ Appended em em' := by
  have run : Meets (· = em) (c.run cfg) (fun _ em' => Laid cfg.dbRoots em'.image ∧ Appended em em')
      fun em' => Laid cfg.dbRoots em'.image ∧ Appended em em' := by
    cases c with
    | createColumnExtentDBroot =>
      exact bind (createColumnExtentDBroot_places good laid placing)
        fun _ => pure fun _ h => h
    | deletePartition oids partitionNums =>
      exact deletePartition_places oids partitionNums good laid
    | _ => exact absurd placing id
  exact step_meets run taken

lemma Placing.careful {c : Command} (placing : Placing cfg em c) : Careful em c := by
  cases c with
  | createColumnExtentDBroot => exact placing.1
  | deletePartition => trivial
  | _ => exact absurd placing id

lemma laid_of_reaches (reached : Reaches (step cfg) (Placing cfg) EM.initial em) :
    Good em ∧ Laid cfg.dbRoots em.image := by
  have kept : ∀ em c em', Good em ∧ Laid cfg.dbRoots em.image → Placing cfg em c →
      step cfg em c = some em' → Good em' ∧ Laid cfg.dbRoots em'.image := by
    rintro em c em' ⟨good, laid⟩ placing taken
    exact ⟨step_meets (Command.run_keeps good placing.careful) taken,
      (step_places good laid placing taken).1⟩
  exact @Reaches.invariant _ _ _ _ _ (fun em => Good em ∧ Laid cfg.dbRoots em.image)
    ⟨initial_good, Laid.nil _⟩ kept em reached

instance (x y : EMEntry) : Decidable (SameFile x y) :=
  decidable_of_iff (x.fileID = y.fileID ∧ x.dbRoot = y.dbRoot ∧ x.partitionNum = y.partitionNum ∧
      x.segmentNum = y.segmentNum)
    ⟨fun ⟨file, root, part, seg⟩ => ⟨⟨file, root, part⟩, seg⟩,
      fun same => ⟨same.fileID, same.dbRoot, same.partitionNum, same.segmentNum⟩⟩

/-- No segment file is on two DBRoots; the extents of a file are disjoint, begin at block 0 and
leave no gap; a file is not longer than it may be. -/
structure WellPlaced (em : EM) : Prop where
  oneRoot : ∀ x ∈ em.image, ∀ y ∈ em.image, x.fileID = y.fileID → x.partitionNum = y.partitionNum →
    x.segmentNum = y.segmentNum → x.dbRoot = y.dbRoot
  disjoint : em.image.Pairwise fun x y => SameFile x y →
    x.blockOffset + x.blocks ≤ y.blockOffset ∨ y.blockOffset + y.blocks ≤ x.blockOffset
  fromZero : ∀ x ∈ em.image, ∃ y ∈ em.image, SameFile y x ∧ y.blockOffset = 0
  noGap : ∀ x ∈ em.image, x.blockOffset ≠ 0 →
    ∃ y ∈ em.image, SameFile y x ∧ y.blockOffset + y.blocks = x.blockOffset
  bounded : ∀ x ∈ em.image, em.image.countP (fun y => SameFile y x) ≤ getExtentsPerSegmentFile

lemma image_nodup (good : Good em) : em.image.Nodup := by
  refine Nodup.of_map (fun e : EMEntry => e.range.start) ?_
  rw [EM.image, map_map]
  have keys : em.tree.entries.map ((fun e : EMEntry => e.range.start) ∘ (·.2)) =
      em.tree.entries.map (·.1) :=
    map_congr_left fun x member => (good.spaced.keyed x member).symm
  rw [keys]
  exact em.tree.keys_nodup

lemma Laid.wellPlaced (good : Good em) (laid : Laid dbRoots em.image) : WellPlaced em := by
  have sized : ∀ x ∈ em.image, 0 < x.blocks := by
    intro x inX
    obtain ⟨key, stored⟩ := mem_image.mp inX
    have used := good.spaced.sized _ stored
    simp only [EMEntry.blocks] at used ⊢
    omega
  have sameSize : ∀ x ∈ em.image, ∀ y ∈ em.image, SameFile x y → x.blocks = y.blocks := by
    intro x inX y inY file
    rw [EMEntry.blocks, laid.uniform x inX y inY file.fileID, EMEntry.blocks]
  have noGap : ∀ x ∈ em.image, x.blockOffset ≠ 0 →
      ∃ y ∈ em.image, SameFile y x ∧ y.blockOffset + y.blocks = x.blockOffset := by
    intro x inX above
    obtain ⟨y, inY, file, below⟩ := laid.layered x inX x inX (SameFile.refl x).toSameGroup above
    exact ⟨y, inY, file, by rw [sameSize y inY x inX file, below]⟩
  refine ⟨laid.oneRoot, ?_, ?_, noGap, ?_⟩
  · refine (image_nodup good).imp_of_mem fun {x y} inX inY differ file => ?_
    obtain ⟨k, _, atK⟩ := laid.counted x inX
    obtain ⟨m, _, atM⟩ := laid.counted y inY
    have blocks := sameSize x inX y inY file
    have offsets : x.blockOffset ≠ y.blockOffset :=
      fun same => differ (laid.once x inX y inY file same)
    rw [atK, atM, ← blocks] at offsets ⊢
    rcases lt_trichotomy k m with less | same | more
    · exact .inl (by rw [← succ_mul]; exact mul_le_mul_right _ less)
    · exact absurd (by rw [same]) offsets
    · exact .inr (by rw [← succ_mul]; exact mul_le_mul_right _ more)
  · -- down the file, extent by extent
    suffices ∀ offset, ∀ x ∈ em.image, x.blockOffset = offset →
        ∃ y ∈ em.image, SameFile y x ∧ y.blockOffset = 0 from fun x inX => this _ x inX rfl
    intro offset
    induction offset using Nat.strongRecOn with
    | ind offset ih =>
      rintro x inX rfl
      by_cases bottom : x.blockOffset = 0
      · exact ⟨x, inX, .refl x, bottom⟩
      obtain ⟨y, inY, file, below⟩ := noGap x inX bottom
      have positive := sized y inY
      obtain ⟨z, inZ, fileZ, zero⟩ := ih y.blockOffset (by omega) y inY rfl
      exact ⟨z, inZ, fileZ.trans file, zero⟩
  intro x inX
  have inFile : ∀ y, y ∈ em.image.filter (fun y => SameFile y x) ↔ y ∈ em.image ∧ SameFile y x := by
    simp
  -- the extents of the file have different layers, of which there are few
  have layer : ∀ y ∈ em.image, SameFile y x →
      y.blockOffset / x.blocks < getExtentsPerSegmentFile ∧
        y.blockOffset = y.blockOffset / x.blocks * x.blocks := by
    intro y inY file
    obtain ⟨k, below, atK⟩ := laid.counted y inY
    rw [atK, sameSize y inY x inX file, Nat.mul_div_cancel _ (sized x inX)]
    exact ⟨below, rfl⟩
  have nodup : ((em.image.filter fun y => SameFile y x).map (·.blockOffset / x.blocks)).Nodup := by
    refine ((image_nodup good).filter _).map_on fun y inY z inZ same => ?_
    obtain ⟨inY, fileY⟩ := (inFile y).mp inY
    obtain ⟨inZ, fileZ⟩ := (inFile z).mp inZ
    refine laid.once y inY z inZ (fileY.trans fileZ.symm) ?_
    rw [(layer y inY fileY).2, (layer z inZ fileZ).2, same]
  have few : (em.image.filter fun y => SameFile y x).map (·.blockOffset / x.blocks) ⊆
      range getExtentsPerSegmentFile := by
    intro k member
    obtain ⟨y, inY, rfl⟩ := mem_map.mp member
    obtain ⟨inY, fileY⟩ := (inFile y).mp inY
    exact mem_range.mpr (layer y inY fileY).1
  have length := (subperm_of_subset nodup few).length_le
  rw [length_map] at length
  rw [countP_eq_length_filter]
  exact length

theorem columns_well_placed (cfg : Config) (em : EM)
    (reached : Reaches (step cfg) (Placing cfg) EM.initial em) :
    WellPlaced em ∧
      ∀ c em', Placing cfg em c → step cfg em c = some em' → Appended em em' := by
  obtain ⟨good, laid⟩ := laid_of_reaches reached
  exact ⟨laid.wellPlaced good, fun c em' placing taken => (step_places good laid placing taken).2⟩

/-- Two DBRoots with two segment files each to a partition. -/
def twoRoots : Config := ⟨4, 2, [1, 2]⟩

def growOnTwoRoots : List Command :=
  [.createColumnExtentDBroot 3000 4 1 .int 0, .createColumnExtentDBroot 3000 4 2 .int 0,
    .createColumnExtentDBroot 3000 4 1 .int 0, .createColumnExtentDBroot 3000 4 1 .int 0,
    .createColumnExtentDBroot 3000 4 1 .int 0, .deletePartition [3000] [⟨1, 0, 0⟩],
    .createColumnExtentDBroot 3000 4 1 .int 0]

theorem columns_well_placed_growOnTwoRoots :
    ∃ em, execute (step twoRoots) (Placing twoRoots) EM.initial growOnTwoRoots = some em ∧
      em.image.map (·.partitionNum) = [0, 0, 0, 1] ∧ WellPlaced em := by
  have done : ((execute (step twoRoots) (Placing twoRoots) EM.initial growOnTwoRoots).map fun em =>
      em.image.map (·.partitionNum)) = some [0, 0, 0, 1] := by
    decide +kernel
  obtain ⟨em, reached, partitions⟩ := Option.map_eq_some_iff.mp done
  exact ⟨em, reached, partitions, (columns_well_placed twoRoots em (reaches_of_execute reached)).1⟩

/-- One segment file to a partition, and the last partition number there is. -/
def fillLastPartition : List Command :=
  List.replicate 4 (.createColumnExtentDBroot 3000 4 1 .int 4294967295)

/-- Two extents fill the last partition; the partition after it is partition 0, where the next two
extents get the same blocks of the same file. -/
theorem partition_wraps_around :
    ∃ em, execute (step ⟨1, 1, [1]⟩) (fun _ _ => True) EM.initial fillLastPartition = some em ∧
      ¬ WellPlaced em := by
  have done :
      ((execute (step ⟨1, 1, [1]⟩) (fun _ _ => True) EM.initial fillLastPartition).map fun em =>
      decide (em.image.Pairwise fun x y => SameFile x y →
        x.blockOffset + x.blocks ≤ y.blockOffset ∨ y.blockOffset + y.blocks ≤ x.blockOffset)) =
      some false := by
    decide +kernel
  obtain ⟨em, reached, overlap⟩ := Option.map_eq_some_iff.mp done
  exact ⟨em, reached, fun placed => of_decide_eq_false overlap placed.disjoint⟩

end ExtentMap
