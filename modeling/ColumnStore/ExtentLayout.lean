import ColumnStore.ExtentMapRuns

/-!
# The layout of a column

The extents of a column on a DBRoot lie in partitions of segment files. In a partition
the files are filled in stripes: an extent is added to each file in the order of the
segment numbers before the next stripe begins. `Laid` says so of a list of extents and is
kept by dropping whole files; `Fits` says where an extent may be added.
-/

namespace ExtentMap

open List Nat

/-- Extents of one column in one partition of one DBRoot. -/
structure SameGroup (x y : EMEntry) : Prop where
  fileID : x.fileID = y.fileID
  dbRoot : x.dbRoot = y.dbRoot
  partitionNum : x.partitionNum = y.partitionNum

structure SameFile (x y : EMEntry) : Prop extends SameGroup x y where
  segmentNum : x.segmentNum = y.segmentNum

variable {x y z : EMEntry}

lemma SameGroup.symm (same : SameGroup x y) : SameGroup y x :=
  ⟨same.fileID.symm, same.dbRoot.symm, same.partitionNum.symm⟩

lemma SameGroup.trans (first : SameGroup x y) (second : SameGroup y z) : SameGroup x z :=
  ⟨first.fileID.trans second.fileID, first.dbRoot.trans second.dbRoot,
    first.partitionNum.trans second.partitionNum⟩

lemma SameFile.refl (x : EMEntry) : SameFile x x := ⟨⟨rfl, rfl, rfl⟩, rfl⟩

lemma SameFile.symm (same : SameFile x y) : SameFile y x :=
  ⟨same.toSameGroup.symm, same.segmentNum.symm⟩

lemma SameFile.trans (first : SameFile x y) (second : SameFile y z) : SameFile x z :=
  ⟨first.toSameGroup.trans second.toSameGroup, first.segmentNum.trans second.segmentNum⟩

def EMEntry.blocks (e : EMEntry) : Nat := e.range.size * 1024

/-- The order in which a column grows on a DBRoot. -/
def Precedes (x y : EMEntry) : Prop :=
  x.partitionNum < y.partitionNum ∨ x.partitionNum = y.partitionNum ∧
    (x.blockOffset < y.blockOffset ∨ x.blockOffset = y.blockOffset ∧ x.segmentNum < y.segmentNum)

lemma Precedes.of_not_before (later : Precedes x z) (notBefore : ¬ Precedes x y) :
    Precedes y z := by
  simp only [Precedes] at later notBefore ⊢
  omega

/-- No extent of the column on the DBRoot comes after `last`. -/
def Latest (extents : List EMEntry) (last : EMEntry) : Prop :=
  ∀ y ∈ extents, y.fileID = last.fileID → y.dbRoot = last.dbRoot → ¬ Precedes last y

/-- `counted` and `once` say that the extents of a file are at different multiples of their size,
`layered` that no file is two extents behind, `stairs` that a file is not behind a later one. -/
structure Laid (dbRoots : List Nat) (extents : List EMEntry) : Prop where
  rooted : ∀ x ∈ extents, x.dbRoot ∈ dbRoots
  uniform : ∀ x ∈ extents, ∀ y ∈ extents, x.fileID = y.fileID → x.range.size = y.range.size
  counted : ∀ x ∈ extents, ∃ k < getExtentsPerSegmentFile, x.blockOffset = k * x.blocks
  once : ∀ x ∈ extents, ∀ y ∈ extents, SameFile x y → x.blockOffset = y.blockOffset → x = y
  layered : ∀ x ∈ extents, ∀ y ∈ extents, SameGroup x y → x.blockOffset ≠ 0 →
    ∃ z ∈ extents, SameFile z y ∧ z.blockOffset + x.blocks = x.blockOffset
  stairs : ∀ x ∈ extents, ∀ y ∈ extents, SameGroup x y → y.segmentNum < x.segmentNum →
    ∃ z ∈ extents, SameFile z y ∧ z.blockOffset = x.blockOffset
  oneRoot : ∀ x ∈ extents, ∀ y ∈ extents, x.fileID = y.fileID → x.partitionNum = y.partitionNum →
    x.segmentNum = y.segmentNum → x.dbRoot = y.dbRoot

lemma Laid.nil (dbRoots : List Nat) : Laid dbRoots [] := by
  constructor <;> simp

variable {dbRoots : List Nat} {extents kept : List EMEntry}

lemma Laid.congr (laid : Laid dbRoots extents) (same : ∀ x, x ∈ kept ↔ x ∈ extents) :
    Laid dbRoots kept := by
  obtain ⟨rooted, uniform, counted, once, layered, stairs, oneRoot⟩ := laid
  constructor <;> simpa only [same]

/-- Dropping whole files leaves the others laid out as they were. -/
lemma Laid.filter {p : EMEntry → Prop}
    (laid : Laid dbRoots extents) (files : ∀ x y, SameFile x y → p x → p y)
    (left : ∀ x, x ∈ kept ↔ x ∈ extents ∧ p x) : Laid dbRoots kept where
  rooted x inX := laid.rooted x ((left x).mp inX).1
  uniform x inX y inY := laid.uniform x ((left x).mp inX).1 y ((left y).mp inY).1
  counted x inX := laid.counted x ((left x).mp inX).1
  once x inX y inY := laid.once x ((left x).mp inX).1 y ((left y).mp inY).1
  layered x inX y inY group above := by
    obtain ⟨inX, _⟩ := (left x).mp inX
    obtain ⟨inY, kept⟩ := (left y).mp inY
    obtain ⟨z, inZ, file, below⟩ := laid.layered x inX y inY group above
    exact ⟨z, (left z).mpr ⟨inZ, files y z file.symm kept⟩, file, below⟩
  stairs x inX y inY group less := by
    obtain ⟨inX, _⟩ := (left x).mp inX
    obtain ⟨inY, kept⟩ := (left y).mp inY
    obtain ⟨z, inZ, file, level⟩ := laid.stairs x inX y inY group less
    exact ⟨z, (left z).mpr ⟨inZ, files y z file.symm kept⟩, file, level⟩
  oneRoot x inX y inY := laid.oneRoot x ((left x).mp inX).1 y ((left y).mp inY).1

/-- An extent that continues the layout. -/
structure Fits (extents : List EMEntry) (e : EMEntry) : Prop where
  uniform : ∀ x ∈ extents, x.fileID = e.fileID → x.range.size = e.range.size
  counted : ∃ k < getExtentsPerSegmentFile, e.blockOffset = k * e.blocks
  vacant : ∀ x ∈ extents, SameFile x e → x.blockOffset ≠ e.blockOffset
  below : ∀ y, y = e ∨ y ∈ extents → SameGroup e y → e.blockOffset ≠ 0 →
    ∃ z ∈ extents, SameFile z y ∧ z.blockOffset + e.blocks = e.blockOffset
  level : ∀ x ∈ extents, SameGroup x e → x.blockOffset ≠ 0 →
    ∃ z ∈ extents, SameFile z e ∧ z.blockOffset + x.blocks = x.blockOffset
  before : ∀ y ∈ extents, SameGroup e y → y.segmentNum < e.segmentNum →
    ∃ z ∈ extents, SameFile z y ∧ z.blockOffset = e.blockOffset
  after : ∀ x ∈ extents, SameGroup x e → e.segmentNum < x.segmentNum →
    ∃ z ∈ extents, SameFile z e ∧ z.blockOffset = x.blockOffset
  oneRoot : ∀ x ∈ extents, x.fileID = e.fileID → x.partitionNum = e.partitionNum →
    x.segmentNum = e.segmentNum → x.dbRoot = e.dbRoot

variable {e : EMEntry}

lemma Laid.cons (laid : Laid dbRoots extents) (fits : Fits extents e)
    (rooted : e.dbRoot ∈ dbRoots) : Laid dbRoots (e :: extents) where
  rooted := forall_mem_cons.mpr ⟨rooted, laid.rooted⟩
  counted := forall_mem_cons.mpr ⟨fits.counted, laid.counted⟩
  uniform x inX y inY same := by
    rcases mem_cons.mp inX with rfl | oldX <;> rcases mem_cons.mp inY with rfl | oldY
    · rfl
    · exact (fits.uniform y oldY same.symm).symm
    · exact fits.uniform x oldX same
    · exact laid.uniform x oldX y oldY same
  once x inX y inY file level := by
    rcases mem_cons.mp inX with rfl | oldX <;> rcases mem_cons.mp inY with rfl | oldY
    · rfl
    · exact absurd level.symm (fits.vacant y oldY file.symm)
    · exact absurd level (fits.vacant x oldX file)
    · exact laid.once x oldX y oldY file level
  layered x inX y inY group above := by
    rcases mem_cons.mp inX with rfl | oldX
    · exact exists_mem_cons_of_exists (fits.below y (mem_cons.mp inY) group above)
    · rcases mem_cons.mp inY with rfl | oldY
      · exact exists_mem_cons_of_exists (fits.level x oldX group above)
      · exact exists_mem_cons_of_exists (laid.layered x oldX y oldY group above)
  stairs x inX y inY group less := by
    rcases mem_cons.mp inX with rfl | oldX <;> rcases mem_cons.mp inY with rfl | oldY
    · exact absurd less (lt_irrefl _)
    · exact exists_mem_cons_of_exists (fits.before y oldY group less)
    · exact exists_mem_cons_of_exists (fits.after x oldX group less)
    · exact exists_mem_cons_of_exists (laid.stairs x oldX y oldY group less)
  oneRoot x inX y inY file part seg := by
    rcases mem_cons.mp inX with rfl | oldX <;> rcases mem_cons.mp inY with rfl | oldY
    · rfl
    · exact (fits.oneRoot y oldY file.symm part.symm seg.symm).symm
    · exact fits.oneRoot x oldX file part seg
    · exact laid.oneRoot x oldX y oldY file part seg

/-- A new file with a segment number above all of its partition, where no file of the DBRoot has
a second extent. -/
lemma Fits.newFile (bottom : e.blockOffset = 0)
    (uniform : ∀ x ∈ extents, x.fileID = e.fileID → x.range.size = e.range.size)
    (highest : ∀ x ∈ extents, x.fileID = e.fileID → x.partitionNum = e.partitionNum →
      x.segmentNum < e.segmentNum)
    (flat : ∀ x ∈ extents, SameGroup x e → x.blockOffset = 0) : Fits extents e where
  uniform := uniform
  counted := ⟨0, by decide, by rw [bottom, zero_mul]⟩
  vacant x inX file := by
    have less := highest x inX file.fileID file.partitionNum
    exact absurd file.segmentNum (Nat.ne_of_lt less)
  below _ _ _ above := absurd bottom above
  level x inX group above := absurd (flat x inX group) above
  before y inY group _ := ⟨y, inY, .refl y, by rw [flat y inY group.symm, bottom]⟩
  after x inX group less :=
    absurd (highest x inX group.fileID group.partitionNum) (lt_asymm less)
  oneRoot x inX file part seg := absurd seg (Nat.ne_of_lt (highest x inX file part))

section KnownFile

variable {last known : EMEntry}

/-- The next extent of a file of the group: what is to show is that it is in the stripe after
`last`. -/
lemma Fits.knownFile (laid : Laid dbRoots extents) (inKnown : known ∈ extents)
    (file : SameFile known e)
    (uniform : ∀ x ∈ extents, x.fileID = e.fileID → x.range.size = e.range.size)
    (counted : ∃ k < getExtentsPerSegmentFile, e.blockOffset = k * e.blocks)
    (vacant : ∀ x ∈ extents, SameFile x e → x.blockOffset ≠ e.blockOffset)
    (below : ∀ y ∈ extents, SameGroup e y → e.blockOffset ≠ 0 →
      ∃ z ∈ extents, SameFile z y ∧ z.blockOffset + e.blocks = e.blockOffset)
    (before : ∀ y ∈ extents, SameGroup e y → y.segmentNum < e.segmentNum →
      ∃ z ∈ extents, SameFile z y ∧ z.blockOffset = e.blockOffset) : Fits extents e where
  uniform := uniform
  counted := counted
  vacant := vacant
  below y inY group above := by
    rcases inY with rfl | inY
    · obtain ⟨z, inZ, fileZ, level⟩ := below known inKnown file.toSameGroup.symm above
      exact ⟨z, inZ, fileZ.trans file, level⟩
    · exact below y inY group above
  level x inX group above := by
    obtain ⟨z, inZ, fileZ, level⟩ :=
      laid.layered x inX known inKnown (group.trans file.toSameGroup.symm) above
    exact ⟨z, inZ, fileZ.trans file, level⟩
  before := before
  after x inX group less := by
    obtain ⟨z, inZ, fileZ, level⟩ := laid.stairs x inX known inKnown
      (group.trans file.toSameGroup.symm) (by rw [file.segmentNum]; exact less)
    exact ⟨z, inZ, fileZ.trans file, level⟩
  oneRoot x inX fileID part seg := by
    rw [laid.oneRoot x inX known inKnown (fileID.trans file.fileID.symm)
      (part.trans file.partitionNum.symm) (seg.trans file.segmentNum.symm), file.dbRoot]

/-- Every file up to that of `last` has an extent at the offset of `last`. -/
lemma Laid.reached (laid : Laid dbRoots extents) (inLast : last ∈ extents) {y : EMEntry}
    (inY : y ∈ extents) (group : SameGroup last y) (upTo : y.segmentNum ≤ last.segmentNum) :
    ∃ z ∈ extents, SameFile z y ∧ z.blockOffset = last.blockOffset := by
  rcases lt_or_eq_of_le upTo with less | same
  · exact laid.stairs last inLast y inY group less
  · exact ⟨last, inLast, ⟨group, same.symm⟩, rfl⟩

variable (laid : Laid dbRoots extents) (inLast : last ∈ extents) (latest : Latest extents last)
  (group : SameGroup last e) (inKnown : known ∈ extents) (file : SameFile known e)
  (uniform : ∀ x ∈ extents, x.fileID = e.fileID → x.range.size = e.range.size)

include laid inLast latest group inKnown file uniform

/-- All files have as many extents as the last one: the first file gets the next. -/
lemma Fits.nextStripe (sized : e.range.size ≠ 0)
    (lastFile : ∀ y ∈ extents, SameGroup last y → y.segmentNum ≤ last.segmentNum)
    (firstFile : ∀ y ∈ extents, SameGroup last y → e.segmentNum ≤ y.segmentNum)
    (offset : e.blockOffset = last.blockOffset + last.blocks)
    (room : last.blockOffset ≠ (getExtentsPerSegmentFile - 1) * last.blocks) : Fits extents e := by
  have blocks : last.blocks = e.blocks := by
    rw [EMEntry.blocks, uniform last inLast group.fileID, EMEntry.blocks]
  refine Fits.knownFile laid inKnown file uniform ?_ ?_ ?_ ?_
  · obtain ⟨k, below, atK⟩ := laid.counted last inLast
    refine ⟨k + 1, ?_, by rw [offset, atK, blocks, succ_mul]⟩
    have notLast : k ≠ getExtentsPerSegmentFile - 1 := by
      rintro rfl
      exact room atK
    omega
  · intro x inX fileX same
    have sizes : 0 < e.blocks := by
      simp only [EMEntry.blocks]
      omega
    refine latest x inX (fileX.fileID.trans group.fileID.symm)
      (fileX.dbRoot.trans group.dbRoot.symm)
      (.inr ⟨group.partitionNum.trans fileX.partitionNum.symm, .inl ?_⟩)
    omega
  · intro y inY groupY _
    have groupLast := group.trans groupY
    obtain ⟨z, inZ, fileZ, level⟩ := laid.reached inLast inY groupLast (lastFile y inY groupLast)
    exact ⟨z, inZ, fileZ, by rw [level, offset, blocks]⟩
  · intro y inY groupY less
    exact absurd less (not_lt.mpr (firstFile y inY (group.trans groupY)))

/-- The file after that of `last` gets its extent of the same stripe. -/
lemma Fits.sameStripe (offset : e.blockOffset = last.blockOffset)
    (next : last.segmentNum < e.segmentNum)
    (nearest : ∀ y ∈ extents, SameGroup last y → last.segmentNum < y.segmentNum →
      e.segmentNum ≤ y.segmentNum) : Fits extents e := by
  have blocks : last.blocks = e.blocks := by
    rw [EMEntry.blocks, uniform last inLast group.fileID, EMEntry.blocks]
  refine Fits.knownFile laid inKnown file uniform ?_ ?_ ?_ ?_
  · rw [offset, ← blocks]
    exact laid.counted last inLast
  · intro x inX fileX same
    refine latest x inX (fileX.fileID.trans group.fileID.symm)
      (fileX.dbRoot.trans group.dbRoot.symm)
      (.inr ⟨group.partitionNum.trans fileX.partitionNum.symm, .inr ⟨by omega, ?_⟩⟩)
    rw [fileX.segmentNum]
    exact next
  · intro y inY groupY above
    rw [offset] at above ⊢
    rw [← blocks]
    exact laid.layered last inLast y inY (group.trans groupY) above
  intro y inY groupY less
  have groupLast := group.trans groupY
  rw [offset]
  refine laid.reached inLast inY groupLast (Nat.le_of_not_lt fun beyond => ?_)
  exact absurd less (Nat.not_lt.mpr (nearest y inY groupLast beyond))

end KnownFile

end ExtentMap
