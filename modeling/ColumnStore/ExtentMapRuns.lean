import ColumnStore.ExtentMapLoad

/-!
# Runs of the extent map

The operations of the extent map one after the other, from the map in new shared
memory. A run ends where the behaviour of the code is undefined. `reload` is a
restart: the map is saved, the shared memory removed, and the image loaded into new
segments; `load` reads an image into the map as it is.

In every run whose steps meet `Careful` the LBID space is divided between the
extents and the free list, and the index agrees with the tree.
-/

namespace ExtentMap

open LbidFreeList OrderedTable ExtentIndex ColumnTypes SpanCover Procedures Runs List

inductive Command where
  | createColumnExtentDBroot (oid : Int) (colWidth dbRoot : Nat) (colDataType : ColDataType)
      (partitionNum : Nat)
  | createStripeColumnExtents (cols : List StripeColumn) (dbRoot partitionNum : Nat)
  | createColumnExtentExactFile (oid : Int) (colWidth dbRoot partitionNum segmentNum : Nat)
      (colDataType : ColDataType)
  | createDictStoreExtent (oid : Int) (dbRoot partitionNum segmentNum : Nat)
  | deleteOID (oid : Int)
  | deleteOIDs (oids : List Int)
  | deletePartition (oids : List Int) (partitionNums : List LogicalPartition)
  | deleteDBRoot (dbRoot : Nat)
  | rollbackColumnExtentsDBroot (oid : Int) (bDeleteAll : Bool)
      (dbRoot partitionNum segmentNum hwm : Nat)
  | rollbackDictStoreExtentsDBroot (oid : Int) (dbRoot partitionNum : Nat) (segNums hwms : List Nat)
  | deleteEmptyColExtents (extentsInfo : List ExtentInfo)
  | deleteEmptyDictStoreExtents (extentsInfo : List ExtentInfo)
  | bulkUpdateDBRoot (args : List (Nat × Nat))
  | growFLShmseg
  | load (image : List EMEntry)
  | reload

/-- The operation a command stands for. -/
def Command.run (cfg : Config) : Command → Op Unit
  | .createColumnExtentDBroot oid colWidth dbRoot colDataType partitionNum => do
      let _ ← ExtentMap.createColumnExtentDBroot cfg oid colWidth dbRoot colDataType partitionNum
  | .createStripeColumnExtents cols dbRoot partitionNum =>
    ExtentMap.createStripeColumnExtents cfg cols dbRoot partitionNum
  | .createColumnExtentExactFile oid colWidth dbRoot partitionNum segmentNum colDataType => do
      let _ ← ExtentMap.createColumnExtentExactFile oid colWidth dbRoot partitionNum segmentNum
        colDataType
  | .createDictStoreExtent oid dbRoot partitionNum segmentNum => do
      let _ ← ExtentMap.createDictStoreExtent oid dbRoot partitionNum segmentNum
  | .deleteOID oid => ExtentMap.deleteOID cfg oid
  | .deleteOIDs oids => ExtentMap.deleteOIDs cfg oids
  | .deletePartition oids partitionNums => ExtentMap.deletePartition oids partitionNums
  | .deleteDBRoot dbRoot => ExtentMap.deleteDBRoot dbRoot
  | .rollbackColumnExtentsDBroot oid bDeleteAll dbRoot partitionNum segmentNum hwm =>
    ExtentMap.rollbackColumnExtentsDBroot oid bDeleteAll dbRoot partitionNum segmentNum hwm
  | .rollbackDictStoreExtentsDBroot oid dbRoot partitionNum segNums hwms =>
    ExtentMap.rollbackDictStoreExtentsDBroot oid dbRoot partitionNum segNums hwms
  | .deleteEmptyColExtents extentsInfo => ExtentMap.deleteEmptyColExtents extentsInfo
  | .deleteEmptyDictStoreExtents extentsInfo => ExtentMap.deleteEmptyDictStoreExtents extentsInfo
  | .bulkUpdateDBRoot args => ExtentMap.bulkUpdateDBRoot args
  | .growFLShmseg => ExtentMap.growFLShmseg
  | .load image => loadVersion4or5 image
  | .reload => do
      let em ← get
      set EM.initial
      loadVersion4or5 em.image

/-- The map after a command, whether it returns or throws. -/
def step (cfg : Config) (em : EM) (c : Command) : Option EM :=
  match c.run cfg em with
  | .ok _ em' => some em'
  | .error .undefinedBehaviour _ => none
  | .error _ em' => some em'

instance (em : EM) (args : List (Nat × Nat)) : Decidable (SameDBRoots em args) :=
  inferInstanceAs (Decidable (∀ arg ∈ args, ∀ x, findByLBID em.tree arg.1 = some x → _))

/-- Extents have at least one unit; extents are not moved to another DBRoot; an image is loaded
only into a map without extents, with extents of fewer than 256 units that are apart. -/
def Careful (em : EM) : Command → Prop
  | .createColumnExtentDBroot _ colWidth _ _ _ => extentSize colWidth / 1024 ≠ 0
  | .createStripeColumnExtents cols _ _ => ∀ col ∈ cols, extentSize col.width / 1024 ≠ 0
  | .createColumnExtentExactFile _ colWidth _ _ _ _ => extentSize colWidth / 1024 ≠ 0
  | .bulkUpdateDBRoot args => SameDBRoots em args
  | .load image => em.tree.entries = [] ∧ ImageOk image
  | .reload => ∀ x ∈ em.tree.entries, x.2.range.size < 256
  | _ => True

lemma mem_image {em : EM} {e : EMEntry} : e ∈ em.image ↔ ∃ key, (key, e) ∈ em.tree.entries := by
  simp [EM.image]

instance (em : EM) (c : Command) : Decidable (Careful em c) :=
  match c with
  | .createColumnExtentDBroot .. | .createColumnExtentExactFile .. => instDecidableNot
  | .createStripeColumnExtents cols _ _ => cols.decidableBAll _
  | .bulkUpdateDBRoot args => inferInstanceAs (Decidable (SameDBRoots em args))
  | .load _ => instDecidableAnd
  | .reload => em.tree.entries.decidableBAll _
  | .createDictStoreExtent .. | .deleteOID _ | .deleteOIDs _ | .deletePartition .. | .deleteDBRoot _
  | .rollbackColumnExtentsDBroot .. | .rollbackDictStoreExtentsDBroot ..
  | .deleteEmptyColExtents _ | .deleteEmptyDictStoreExtents _ | .growFLShmseg => .isTrue trivial

lemma Good.image_ok {em : EM} (good : Good em)
    (small : ∀ x ∈ em.tree.entries, x.2.range.size < 256) : ImageOk em.image := by
  have sized : ∀ e ∈ em.image, e.range.size ≠ 0 := by
    intro e member
    obtain ⟨key, stored⟩ := mem_image.mp member
    exact good.spaced.sized _ stored
  have covered : ∀ x, cover (em.image.map (·.range.span)) x ≤ if x < 2 ^ 36 then 1 else 0 := by
    intro x
    have here := good.spaced.covered x
    rw [EM.image, map_map]
    change treeCover em.tree x ≤ _
    omega
  have single : ∀ x, cover (em.image.map (·.range.span)) x ≤ 1 := by
    intro x
    have here := covered x
    split at here <;> omega
  refine ⟨sized, ?_, ?_, ?_, ?_⟩
  · intro e member
    obtain ⟨key, stored⟩ := mem_image.mp member
    exact small _ stored
  · intro e member
    obtain ⟨key, stored⟩ := mem_image.mp member
    exact good.spaced.aligned _ stored
  · -- the last block of an extent beyond the space would be in an extent
    intro e member
    have used := sized e member
    by_contra high
    have hit := hit_le_cover (mem_map_of_mem (f := (·.range.span)) member)
      (e.range.blockEnd - 1)
    have outside := covered (e.range.blockEnd - 1)
    rw [if_neg (by omega)] at outside
    have last : e.range.span.Contains (e.range.blockEnd - 1) := by
      simp only [Span.Contains, InlineLBIDRange.span, InlineLBIDRange.blockEnd]
      omega
    rw [Span.hit_of_contains last] at hit
    omega
  refine (pairwise_map.mp (pairwise_of_cover_le_one single)).imp_of_mem ?_
  intro a b inA inB never
  have usedA := sized a inA
  have usedB := sized b inB
  by_contra overlap
  simp only [InlineLBIDRange.blockEnd] at overlap
  refine never (max a.range.start b.range.start) ?_
  simp only [Span.Contains, InlineLBIDRange.span]
  omega

lemma bulkUpdateDBRoot_same {em : EM} {args : List (Nat × Nat)} (same : SameDBRoots em args) :
    Meets (· = em) (bulkUpdateDBRoot args) (fun _ => (· = em)) (· = em) := by
  have unchanged : ∀ arg ∈ args, ∀ it, findByLBID em.tree arg.1 = some it →
      (em.tree.update it.1 fun e => { e with dbRoot := arg.2 }) = em.tree := by
    intro arg member it found
    refine Table.update_same fun e stored => ?_
    rw [← same arg member it found, em.tree.value_unique stored (mem_of_findByLBID found)]
  induction args with
  | nil => exact Meets.pure fun _ h => h
  | cons arg rest ih =>
    refine Meets.bind ?_ fun _ => ih (fun later inRest => same later (.tail _ inRest))
      (fun later inRest => unchanged later (.tail _ inRest))
    refine Meets.get_bind fun _ here => ?_
    cases here
    cases found : findByLBID em.tree arg.1 with
    | none => exact Meets.throw fun _ h => h
    | some it =>
      refine Meets.set ?_
      rw [unchanged arg (.head _) it found]

lemma Command.run_keeps {cfg : Config} {em : EM} {c : Command} (good : Good em)
    (careful : Careful em c) : Meets (· = em) (c.run cfg) (fun _ => Good) Good := by
  have discard : ∀ {α : Type} {p : Op α}, Keeps Good p → Keeps Good (do let _ ← p) :=
    fun keeps => Keeps.bind keeps fun _ => Keeps.pure
  cases c with
  | createColumnExtentDBroot => exact (discard (createColumnExtentDBroot_keeps careful)).start good
  | createStripeColumnExtents => exact (createStripeColumnExtents_keeps careful).start good
  | createColumnExtentExactFile =>
    exact (discard (createColumnExtentExactFile_keeps careful)).start good
  | createDictStoreExtent => exact (discard createDictStoreExtent_keeps).start good
  | deleteOID => exact (deleteOID_keeps _ _).start good
  | deleteOIDs => exact (deleteOIDs_keeps _ _).start good
  | deletePartition => exact (deletePartition_keeps _ _).start good
  | deleteDBRoot => exact (deleteDBRoot_keeps _).start good
  | rollbackColumnExtentsDBroot => exact rollbackColumnExtentsDBroot_keeps.start good
  | rollbackDictStoreExtentsDBroot => exact rollbackDictStoreExtentsDBroot_keeps.start good
  | deleteEmptyColExtents => exact (deleteEmptyColExtents_keeps _).start good
  | deleteEmptyDictStoreExtents => exact (deleteEmptyDictStoreExtents_keeps _).start good
  | bulkUpdateDBRoot =>
    exact (bulkUpdateDBRoot_same careful).weaken (fun _ h => h) (fun _ _ h => h ▸ good)
      fun _ h => h ▸ good
  | growFLShmseg => exact growFLShmseg_keeps.start good
  | load image => exact (loadVersion4or5_meets careful.2).start ⟨good, careful.1⟩
  | reload =>
    refine Meets.get_bind fun _ here => Meets.set_bind ?_
    cases here
    exact (loadVersion4or5_meets (good.image_ok careful)).start ⟨initial_good, rfl⟩

lemma step_meets {cfg : Config} {em em' : EM} {c : Command} {holds : EM → Prop}
    (meets : Meets (· = em) (c.run cfg) (fun _ => holds) holds)
    (taken : step cfg em c = some em') : holds em' := by
  have ended := meets em rfl
  unfold step at taken
  split at taken
  · rename_i result
    rw [result] at ended
    cases taken
    exact ended
  · cases taken
  · rename_i result
    rw [result] at ended
    cases taken
    exact ended

lemma Good.of_reaches {cfg : Config} {em : EM}
    (reached : Reaches (step cfg) Careful EM.initial em) : Good em :=
  reached.invariant initial_good fun _ _ _ good careful =>
    step_meets (Command.run_keeps good careful)

/-- Each LBID is in one extent or in one range of the free list, no two ranges touch, extents do
not overlap, and the counter of the free list is right. -/
structure LbidsDivided (em : EM) : Prop where
  once : ∀ lbid < 2 ^ 36,
    em.tree.entries.countP (fun e => e.2.range.span.Contains lbid) +
      em.freeList.slots.countP (fun r => r.span.Contains lbid) = 1
  notAdjacent : ∀ a ∈ em.freeList.slots, ∀ b ∈ em.freeList.slots, a.size ≠ 0 → b.size ≠ 0 →
    a.blockEnd ≠ b.start
  noOverlap : em.tree.entries.Pairwise fun a b =>
    ∀ lbid, ¬ (a.2.range.span.Contains lbid ∧ b.2.range.span.Contains lbid)
  counted : em.freeList.currentSize = em.freeList.slots.countP (·.size ≠ 0)

theorem lbids_divided (cfg : Config) (em : EM)
    (reached : Reaches (step cfg) Careful EM.initial em) : LbidsDivided em := by
  have good := Good.of_reaches reached
  refine ⟨fun lbid below => ?_, good.spaced.free.apart, ?_, good.spaced.free.counted⟩
  · have covered := good.spaced.covered lbid
    simp only [treeCover, FreeList.cover, cover, countP_map, if_pos below] at covered
    exact covered
  refine pairwise_map.mp (pairwise_of_cover_le_one fun x => ?_)
  have covered := good.spaced.covered x
  change treeCover em.tree x ≤ 1
  split at covered <;> omega

/-- One DBRoot with two segment files to a partition. -/
def oneRoot : Config := ⟨2, 1, [1]⟩

/-- Two extents of different widths, of which one is dropped after a restart. -/
def createAndDrop : List Command :=
  [.createColumnExtentDBroot 3000 8 1 .bigint 0, .createColumnExtentDBroot 3001 4 1 .int 0,
    .createDictStoreExtent 3002 1 0 0, .reload, .deleteOID 3000, .growFLShmseg]

theorem lbids_divided_createAndDrop :
    ∃ em, execute (step oneRoot) Careful EM.initial createAndDrop = some em ∧
      em.tree.entries.length = 2 ∧ LbidsDivided em := by
  have done : ((execute (step oneRoot) Careful EM.initial createAndDrop).map
      (·.tree.entries.length)) = some 2 := by
    decide +kernel
  obtain ⟨em, reached, length⟩ := Option.map_eq_some_iff.mp done
  exact ⟨em, reached, length, lbids_divided oneRoot em (reaches_of_execute reached)⟩

/-- An extent of 256 units has size 0 in the parameter of `reserveLBIDRange`: after a restart its
blocks are in the free list as well. -/
theorem wide_extent_free_after_reload :
    ∃ em, execute (step oneRoot) (fun _ _ => True) EM.initial
        [.createColumnExtentDBroot 3000 256 1 .char 0, .reload] = some em ∧
      ¬ LbidsDivided em := by
  have done : ((execute (step oneRoot) (fun _ _ => True) EM.initial
      [.createColumnExtentDBroot 3000 256 1 .char 0, .reload]).map fun em =>
        em.tree.entries.countP (fun e => e.2.range.span.Contains 0) +
          em.freeList.slots.countP (fun r => r.span.Contains 0)) = some 2 := by
    decide +kernel
  obtain ⟨em, reached, twice⟩ := Option.map_eq_some_iff.mp done
  refine ⟨em, reached, fun divided => ?_⟩
  have once := divided.once 0 (by decide)
  omega

/-- The index returns each extent with the keys asked for once, and nothing else. -/
structure IndexAgrees (em : EM) : Prop where
  once : ∀ dbRoot oid partition, (em.index.find ⟨dbRoot, oid, partition⟩).Nodup
  exact : ∀ dbRoot oid partition lbid, lbid ∈ em.index.find ⟨dbRoot, oid, partition⟩ ↔
    ∃ e, (lbid, e) ∈ em.tree.entries ∧
      e.dbRoot = dbRoot ∧ e.fileID = oid ∧ e.partitionNum = partition
  unionOnce : ∀ dbRoot oid, (em.index.findOID dbRoot oid).Nodup
  union : ∀ dbRoot oid lbid, lbid ∈ em.index.findOID dbRoot oid ↔
    ∃ partition, lbid ∈ em.index.find ⟨dbRoot, oid, partition⟩

theorem index_agrees (cfg : Config) (em : EM)
    (reached : Reaches (step cfg) Careful EM.initial em) : IndexAgrees em := by
  have indexed := (Good.of_reaches reached).indexed
  refine ⟨fun _ _ _ => indexed.once _, fun dbRoot oid partition lbid => ?_, fun dbRoot oid => ?_,
    fun _ _ _ => ExtentMapIndex.mem_findOID⟩
  · rw [indexed.names]
    simp [EMEntry.indexKey]
  refine ExtentMapIndex.findOID_nodup (fun _ => indexed.once _) fun p q lbid inP inQ => ?_
  obtain ⟨e, stored, key⟩ := (indexed.names _ _).mp inP
  obtain ⟨e', stored', key'⟩ := (indexed.names _ _).mp inQ
  cases em.tree.value_unique stored stored'
  cases key.symm.trans key'
  rfl

theorem index_agrees_createAndDrop :
    ∃ em, execute (step oneRoot) Careful EM.initial createAndDrop = some em ∧
      em.index.findOID 1 3001 ≠ [] ∧ IndexAgrees em := by
  have done : ((execute (step oneRoot) Careful EM.initial createAndDrop).map
      (·.index.findOID 1 3001)) = some [8192] := by
    decide +kernel
  obtain ⟨em, reached, found⟩ := Option.map_eq_some_iff.mp done
  exact ⟨em, reached, by simp [found], index_agrees oneRoot em (reaches_of_execute reached)⟩

/-- `bulkUpdateDBRoot` moves an extent in the tree and leaves it under its old DBRoot in the
index. -/
theorem index_keeps_old_dbroot :
    ∃ em, execute (step oneRoot) (fun _ _ => True) EM.initial
        [.createColumnExtentDBroot 3000 8 1 .bigint 0, .bulkUpdateDBRoot [(0, 2)]] = some em ∧
      ¬ IndexAgrees em := by
  have done : ((execute (step oneRoot) (fun _ _ => True) EM.initial
      [.createColumnExtentDBroot 3000 8 1 .bigint 0, .bulkUpdateDBRoot [(0, 2)]]).map fun em =>
        (em.index.find ⟨1, 3000, 0⟩, em.tree.entries.all fun e => e.2.dbRoot = 2)) =
      some ([0], true) := by
    decide +kernel
  obtain ⟨em, reached, values⟩ := Option.map_eq_some_iff.mp done
  obtain ⟨found, moved⟩ := Prod.mk.inj values
  refine ⟨em, reached, fun agrees => ?_⟩
  obtain ⟨e, stored, onOne, -⟩ := (agrees.exact 1 3000 0 0).mp (by simp [found])
  have onTwo := of_decide_eq_true (all_eq_true.mp moved _ stored)
  dsimp only at onTwo
  omega

end ExtentMap
