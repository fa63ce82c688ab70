import ColumnStore.ExtentMapRuns

/-!
# Finding the extent of an LBID

The lookups by LBID, the functions that reject an LBID without an extent, and the
way back from a block of a file to its LBID. `findByLBID` checks that the last
extent of the tree contains the LBID, but returns an earlier one unchecked, so an
LBID that was freed between two extents is found in the extent before it.

LBIDs are not negative. What a function changed before it throws is left out: the
caller undoes it.
-/

namespace ExtentMap

open RangeProtocol ColumnTypes OrderedTable Runs List Option Nat
open SpanCover.Span (Contains)

/-- The first and the last LBID of the extent; `none` for the result -1. -/
def lookup (em : EM) (lbid : Nat) : Option (Nat × Nat) :=
  (findByLBID em.tree lbid).map fun it =>
    (it.2.range.start, it.2.range.start + it.2.range.size * 1024 - 1)

/-- A block of a segment file. -/
structure FileBlock where
  oid : Int
  dbRoot : Nat
  partitionNum : Nat
  segmentNum : Nat
  fileBlockOffset : Nat

def lookupLocal (em : EM) (lbid : Nat) : Option FileBlock :=
  (findByLBID em.tree lbid).map fun it =>
    ⟨it.2.fileID, it.2.dbRoot, it.2.partitionNum, it.2.segmentNum,
      (it.2.blockOffset + (lbid - it.2.range.start)) % 2 ^ 32⟩

def EMEntry.HasBlock (e : EMEntry) (segmentNum fileBlockOffset : Nat) : Prop :=
  e.range.size ≠ 0 ∧ e.segmentNum = segmentNum ∧ e.blockOffset ≤ fileBlockOffset ∧
    fileBlockOffset ≤ e.blockOffset + e.range.size * 1024 - 1
  deriving Decidable

/-- One round of `lookupLocalBlock`; the offset in the extent is an `int`. -/
def searchDBRoot (em : EM) (oid : Int) (partitionNum segmentNum fileBlockOffset dbRoot : Nat) :
    Option (Except String (Option Int)) :=
  match getEmIdentsByLbids em (em.index.find ⟨dbRoot, oid, partitionNum⟩) with
  | none => some (throw "ExtentMap::markInvalid(): lbid isn't allocated")
  | some emIdents => (emIdents.find? (·.HasBlock segmentNum fileBlockOffset)).map fun e =>
    pure (some (e.range.start + (BitVec.ofNat 32 (fileBlockOffset - e.blockOffset)).toInt))

/-- The other `lookupLocal`: the LBID of a block of a file. -/
def lookupLocalBlock (cfg : Config) (em : EM) (oid : Int)
    (partitionNum segmentNum fileBlockOffset : Nat) : Except String (Option Int) :=
  if oid < 0 then throw "ExtentMap::lookup(): OID and FBO must be >= 0"
  else (cfg.dbRoots.findSome? (searchDBRoot em oid partitionNum segmentNum fileBlockOffset)).getD
    (pure none)

def markInvalid (em : EM) (lbid : Nat) (colDataType : ColDataType) : Except String EM :=
  match findByLBID em.tree lbid with
  | none => throw "ExtentMap::markInvalid(): lbid isn't allocated"
  | some it => pure (em.withUpdate it.1 it.2 fun e =>
    { e with cprange :=
        ⟨initialRange colDataType e.colWid, incSeqNum e.cprange.sequenceNum, .updating⟩ })

/-- A round of `setExtentsMaxMin`. A change of the entry moves its sequence number. -/
def setMaxMinOf (em : EM) (item : Nat × CPMaxMin) : Except String EM :=
  match findByLBID em.tree item.1 with
  | none => throw "ExtentMap::setExtentsMaxMin(): lbid not found"
  | some it =>
    if it.2.cprange.setMaxMin item.2 = it.2.cprange then pure em
    else pure (em.withUpdate it.1 it.2 fun e => { e with cprange := e.cprange.setMaxMin item.2 })

/-- Every round counts, so only an empty map gets to the end of the code. -/
def setExtentsMaxMin (em : EM) (cpMap : List (Nat × CPMaxMin)) : Except String EM :=
  if cpMap.isEmpty then throw "ExtentMap::setExtentsMaxMin(): lbid isn't allocated"
  else cpMap.foldlM setMaxMinOf em

def getMaxMin (em : EM) (lbid : Nat) : Except String CPEntry :=
  match findByLBID em.tree lbid with
  | none => throw "ExtentMap::getMaxMin(): that lbid isn't allocated"
  | some it => pure it.2.cprange

/-- The extents are apart, in their LBIDs and in the blocks of their files. -/
structure Placed (cfg : Config) (em : EM) : Prop where
  keyed : ∀ x ∈ em.tree.entries, x.1 = x.2.range.start
  sized : ∀ x ∈ em.tree.entries, x.2.range.size ≠ 0
  apart : ∀ x ∈ em.tree.entries, ∀ y ∈ em.tree.entries, ∀ lbid,
    x.2.range.span.Contains lbid → y.2.range.span.Contains lbid → x = y
  indexed : Indexed em.tree.entries em.index
  rooted : ∀ x ∈ em.tree.entries, 0 ≤ x.2.fileID ∧ x.2.dbRoot ∈ cfg.dbRoots
  inFile : ∀ x ∈ em.tree.entries, x.2.range.size * 1024 ≤ 2 ^ 31 ∧
    x.2.blockOffset + x.2.range.size * 1024 ≤ 2 ^ 32
  ownBlocks : ∀ x ∈ em.tree.entries, ∀ y ∈ em.tree.entries, x.2.fileID = y.2.fileID →
    x.2.partitionNum = y.2.partitionNum → ∀ segmentNum fileBlockOffset,
      x.2.HasBlock segmentNum fileBlockOffset → y.2.HasBlock segmentNum fileBlockOffset → x = y

/-- An extent contains the LBID. -/
def Allocated (tree : Tree) (lbid : Nat) : Prop := ∃ x ∈ tree.entries, x.2.range.span.Contains lbid

/-- The LBID is free, between two extents. -/
def Gap (tree : Tree) (lbid : Nat) : Prop :=
  ¬ Allocated tree lbid ∧ (∃ x ∈ tree.entries, x.1 < lbid) ∧ ∃ x ∈ tree.entries, lbid < x.1

variable {tree : Tree} {lbid : Nat} {x : Nat × EMEntry} {cfg : Config} {em : EM}

section

variable (placed : Placed cfg em)
include placed

lemma Placed.contains_key (member : x ∈ em.tree.entries) : x.2.range.span.Contains x.1 := by
  have positive := Nat.pos_of_ne_zero (placed.sized x member)
  rw [placed.keyed x member]
  exact ⟨Nat.le_refl _, Nat.lt_add_of_pos_right (Nat.mul_pos positive (by decide))⟩

/-- A search for a block of an extent finds nothing else, and finds it on its own DBRoot. -/
lemma Placed.searchDBRoot_eq (member : x ∈ em.tree.entries) {segmentNum fileBlockOffset : Nat}
    (own : x.2.HasBlock segmentNum fileBlockOffset) (dbRoot : Nat) :
    let search := searchDBRoot em x.2.fileID x.2.partitionNum segmentNum fileBlockOffset dbRoot
    search = some (.ok (some (x.2.range.start +
      (BitVec.ofNat 32 (fileBlockOffset - x.2.blockOffset)).toInt))) ∨
    search = none ∧ dbRoot ≠ x.2.dbRoot := by
  obtain ⟨emIdents, found, listed⟩ := getEmIdentsByLbids_eq
    (placed.indexed.find_visits ⟨dbRoot, x.2.fileID, x.2.partitionNum⟩).present
  simp only [searchDBRoot, found]
  cases hit : emIdents.find? (·.HasBlock segmentNum fileBlockOffset) with
  | some e =>
    obtain ⟨key, named, stored⟩ := (listed e).mp (mem_of_find?_eq_some hit)
    obtain ⟨e', stored', keys⟩ := (placed.indexed.names _ _).mp named
    cases em.tree.value_unique stored stored'
    cases placed.ownBlocks _ stored x member (congrArg ExtentIndex.IndexKey.fileID keys)
      (congrArg ExtentIndex.IndexKey.partitionNum keys) _ _ (by simpa using find?_some hit) own
    exact .inl rfl
  | none =>
    refine .inr ⟨rfl, ?_⟩
    rintro rfl
    have named := (placed.indexed.names _ x.1).mpr ⟨x.2, member, rfl⟩
    exact find?_eq_none.mp hit x.2 ((listed x.2).mpr ⟨x.1, named, member⟩) (decide_eq_true own)

section

variable (member : x ∈ em.tree.entries) (inside : x.2.range.span.Contains lbid)
include member inside

lemma Placed.lt_of_later {y : Nat × EMEntry} (member' : y ∈ em.tree.entries)
    (later : x.1 < y.1) : lbid < y.1 := by
  by_contra notAbove
  have start : x.2.range.span.Contains y.1 :=
    ⟨(placed.keyed x member ▸ later).le, Nat.lt_of_le_of_lt (Nat.le_of_not_lt notAbove) inside.2⟩
  have same := placed.apart x member y member' _ start (placed.contains_key member')
  exact Nat.ne_of_lt later (congrArg Prod.fst same)

lemma Placed.findByLBID_of_contains : findByLBID em.tree lbid = some x := by
  have key := placed.keyed x member
  rcases eq_or_lt_of_le (key ▸ inside.1 : x.1 ≤ lbid) with rfl | above
  · exact findByLBID_of_mem member
  obtain ⟨before, after, split⟩ := append_of_mem member
  have ascending := em.tree.ascending
  rw [split] at ascending
  obtain ⟨-, fromX, below⟩ := pairwise_append.mp ascending
  have early : ∀ y ∈ before, y.1 < lbid := fun y mem =>
    lt_trans (below y mem x mem_cons_self) above
  have late : ∀ y ∈ after, lbid < y.1 := fun y mem =>
    placed.lt_of_later member inside (by rw [split]; simp [mem])
      ((pairwise_cons.mp fromX).1 y mem)
  have bound : em.tree.lowerBound lbid = after.head? := by
    rw [Table.lowerBound, split, find?_append, find?_eq_none.mpr (by simpa using early), none_or,
      find?_cons_of_neg (by simpa using above)]
    cases after with
    | nil => rfl
    | cons y rest => exact find?_cons_of_pos (by simpa using (late y mem_cons_self).le)
  rw [findByLBID, bound]
  cases after with
  | nil =>
    rw [split, getLast?_concat]
    exact filter_eq_some_iff.mpr ⟨rfl, decide_eq_true (key ▸ inside)⟩
  | cons y rest =>
    have next := late y mem_cons_self
    dsimp only [head?_cons]
    rw [if_neg next.ne', split, takeWhile_append_of_pos (by simpa using early),
      takeWhile_cons_of_pos (by simpa using above),
      takeWhile_cons_of_neg (by simpa using next.le), getLast?_concat]

lemma Placed.lookupLocalBlock_eq :
    lookupLocalBlock cfg em x.2.fileID x.2.partitionNum x.2.segmentNum
      ((x.2.blockOffset + (lbid - x.2.range.start)) % 2 ^ 32) = .ok (some (lbid : Int)) := by
  obtain ⟨oid, root⟩ := placed.rooted x member
  obtain ⟨small, fits⟩ := placed.inFile x member
  obtain ⟨start, behind⟩ : x.2.range.start ≤ lbid ∧
    lbid < x.2.range.start + x.2.range.size * 1024 := inside
  rw [mod_eq_of_lt (by omega), lookupLocalBlock, if_neg (by omega)]
  have own : x.2.HasBlock x.2.segmentNum (x.2.blockOffset + (lbid - x.2.range.start)) :=
    ⟨placed.sized x member, rfl, by omega, by omega⟩
  have each := placed.searchDBRoot_eq member own
  have value : (x.2.range.start : Int) + (BitVec.ofNat 32 (x.2.blockOffset +
      (lbid - x.2.range.start) - x.2.blockOffset)).toInt = lbid := by
    rw [BitVec.toInt_eq_toNat_of_lt] <;> rw [BitVec.toNat_ofNat] <;> omega
  rw [value] at each
  cases searched : cfg.dbRoots.findSome? (searchDBRoot em x.2.fileID x.2.partitionNum
      x.2.segmentNum (x.2.blockOffset + (lbid - x.2.range.start))) with
  | none =>
    have missed := findSome?_eq_none_iff.mp searched _ root
    rcases each x.2.dbRoot with hit | miss
    · cases hit.symm.trans missed
    · exact absurd rfl miss.2
  | some r =>
    obtain ⟨dbRoot, -, hit⟩ := exists_of_findSome?_eq_some searched
    rcases each dbRoot with here | miss
    · exact some.inj (hit.symm.trans here)
    · cases hit.symm.trans miss.1

end

/-- The extent that is found contains the LBID, or the LBID is in a gap. -/
lemma Placed.contains_or_gap (found : findByLBID em.tree lbid = some x) :
    x.2.range.span.Contains lbid ∨ Gap em.tree lbid := by
  have member := mem_of_findByLBID found
  by_cases allocated : Allocated em.tree lbid
  · obtain ⟨y, member', inside⟩ := allocated
    rw [placed.findByLBID_of_contains member' inside] at found
    exact .inl (some.inj found ▸ inside)
  unfold findByLBID at found
  split at found
  · have checked := of_decide_eq_true (filter_eq_some_iff.mp found).2
    rw [placed.keyed x member] at checked
    exact .inl checked
  rename_i e bound
  have stored := mem_of_find?_eq_some bound
  split at found
  · rename_i atKey
    exact absurd ⟨e, stored, atKey ▸ placed.contains_key stored⟩ allocated
  have notBelow : lbid ≤ e.1 := by simpa using find?_some bound
  have below : x.1 < lbid := by
    simpa using mem_takeWhile_imp (mem_of_getLast? found)
  exact .inr ⟨allocated, ⟨x, member, below⟩, e, stored, by omega⟩

lemma Placed.found_of_gap (gap : Gap em.tree lbid) : ∃ x, findByLBID em.tree lbid = some x := by
  obtain ⟨free, ⟨a, memberA, below⟩, b, memberB, above⟩ := gap
  obtain ⟨e, bound⟩ : ∃ e, em.tree.lowerBound lbid = some e :=
    isSome_iff_exists.mp (find?_isSome.mpr ⟨b, memberB, decide_eq_true above.le⟩)
  have stored := mem_of_find?_eq_some bound
  have other : e.1 ≠ lbid := fun same => free ⟨e, stored, same ▸ placed.contains_key stored⟩
  rw [findByLBID, bound]
  dsimp only
  rw [if_neg other]
  refine ⟨_, getLast?_eq_some_getLast fun empty => ?_⟩
  have ascending := em.tree.ascending
  cases entries : em.tree.entries with
  | nil => simp [entries] at memberA
  | cons first rest =>
    rw [entries] at empty memberA ascending
    have notBelow : ¬ first.1 < lbid := by simpa using empty
    rcases mem_cons.mp memberA with rfl | later
    · exact notBelow below
    · exact notBelow (lt_trans ((pairwise_cons.mp ascending).1 a later) below)

lemma Placed.found_iff : (∀ x, findByLBID em.tree lbid = some x ↔
    x ∈ em.tree.entries ∧ x.2.range.span.Contains lbid) ↔ ¬ Gap em.tree lbid := by
  refine ⟨fun exact gap => ?_, fun noGap x => ⟨fun found => ?_, fun there => ?_⟩⟩
  · obtain ⟨x, found⟩ := placed.found_of_gap gap
    exact gap.1 ⟨x, (exact x).mp found⟩
  · exact ⟨mem_of_findByLBID found, (placed.contains_or_gap found).resolve_right noGap⟩
  · exact placed.findByLBID_of_contains there.1 there.2

end

lemma isSome_findByLBID_update {key : Nat} {change : EMEntry → EMEntry}
    (ranges : ∀ e, (change e).range = e.range) :
    (findByLBID (tree.update key change) lbid).isSome = (findByLBID tree lbid).isSome := by
  have kept : ∀ e : Nat × EMEntry, (if e.1 = key then (e.1, change e.2) else e).1 = e.1 ∧
      (if e.1 = key then (e.1, change e.2) else e).2.range = e.2.range := by
    intro e
    split <;> simp [ranges]
  simp only [findByLBID, Table.lowerBound, Table.update, find?_map, Function.comp_def, kept,
    takeWhile_map, getLast?_map]
  cases tree.entries.find? fun e => lbid ≤ e.1 with
  | none =>
    cases tree.entries.getLast? with
    | none => rfl
    | some e => simp [kept]
  | some e =>
    simp only [map_some, kept]
    split <;> simp

/-- The rounds go through if each finds an extent: none changes what is found. -/
lemma foldlM_setMaxMinOf_isOk (cpMap : List (Nat × CPMaxMin)) (em : EM) :
    (cpMap.foldlM setMaxMinOf em).isOk ↔
      ∀ item ∈ cpMap, (findByLBID em.tree item.1).isSome := by
  induction cpMap generalizing em with
  | nil => simp [pure, Except.pure, Except.toBool]
  | cons item rest ih =>
    rw [foldlM_cons, forall_mem_cons]
    cases found : findByLBID em.tree item.1 with
    | none =>
      rw [setMaxMinOf, found]
      simp [throw, throwThe, bind, Except.bind, Except.isOk, Except.toBool]
    | some it =>
      obtain ⟨em', done, same⟩ : ∃ em', setMaxMinOf em item = .ok em' ∧
          ∀ lbid, (findByLBID em'.tree lbid).isSome = (findByLBID em.tree lbid).isSome := by
        simp only [setMaxMinOf, found]
        split
        · exact ⟨em, rfl, fun _ => rfl⟩
        · exact ⟨_, rfl, fun _ => isSome_findByLBID_update fun _ => rfl⟩
      rw [done]
      refine (ih em').trans ?_
      simp [same]

/-- What a round finds is there before the first. -/
theorem setExtentsMaxMin_isOk (em : EM) (cpMap : List (Nat × CPMaxMin)) :
    (setExtentsMaxMin em cpMap).isOk ↔
      cpMap ≠ [] ∧ ∀ item ∈ cpMap, (findByLBID em.tree item.1).isSome := by
  rw [← foldlM_setMaxMinOf_isOk]
  cases cpMap with
  | nil => exact iff_of_false nofun fun both => both.1 rfl
  | cons => exact (and_iff_right (cons_ne_nil _ _)).symm

/-- What is expected of an LBID. -/
structure LookupExact (cfg : Config) (em : EM) (lbid : Nat) : Prop where
  found : ∀ x, findByLBID em.tree lbid = some x ↔
    x ∈ em.tree.entries ∧ x.2.range.span.Contains lbid
  extent : lookup em lbid = none ↔ ¬ Allocated em.tree lbid
  block : lookupLocal em lbid = none ↔ ¬ Allocated em.tree lbid
  mark : ∀ colDataType, (markInvalid em lbid colDataType).isOk = false ↔ ¬ Allocated em.tree lbid
  set : ∀ before after info, (∀ item ∈ before ++ after, Allocated em.tree item.1) →
    ((setExtentsMaxMin em (before ++ (lbid, info) :: after)).isOk = false ↔
      ¬ Allocated em.tree lbid)
  get : (getMaxMin em lbid).isOk = false ↔ ¬ Allocated em.tree lbid
  back : Allocated em.tree lbid → ∃ b, lookupLocal em lbid = some b ∧
    lookupLocalBlock cfg em b.oid b.partitionNum b.segmentNum b.fileBlockOffset =
      .ok (some (lbid : Int))

theorem lookupExact_iff (placed : Placed cfg em) (lbid : Nat) :
    LookupExact cfg em lbid ↔ ¬ Gap em.tree lbid := by
  refine ⟨fun exact => placed.found_iff.mp exact.found, fun noGap => ?_⟩
  have found := placed.found_iff.mpr noGap
  have present : (findByLBID em.tree lbid).isSome ↔ Allocated em.tree lbid := by
    rw [isSome_iff_exists]
    exact exists_congr found
  have rejected : findByLBID em.tree lbid = none ↔ ¬ Allocated em.tree lbid := by
    rw [← present, not_isSome_iff_eq_none]
  have ended {α : Type} {result : Except String α}
      (ok : result.isOk = (findByLBID em.tree lbid).isSome) :
      result.isOk = false ↔ ¬ Allocated em.tree lbid := by
    rw [← present, ok, Bool.not_eq_true]
  refine ⟨found, map_eq_none_iff.trans rejected, map_eq_none_iff.trans rejected,
    fun _ => ended ?_, fun before after info others => ended ?_, ended ?_, ?_⟩
  · unfold markInvalid
    cases findByLBID em.tree lbid <;> rfl
  · rw [setExtentsMaxMin, if_neg (by simp), Bool.eq_iff_iff, foldlM_setMaxMinOf_isOk,
      forall_mem_append, forall_mem_cons]
    have each : ∀ item ∈ before ++ after, (findByLBID em.tree item.1).isSome := by
      intro item mem
      obtain ⟨x, member, inside⟩ := others item mem
      rw [placed.findByLBID_of_contains member inside]
      rfl
    rw [forall_mem_append] at each
    exact ⟨fun all => all.2.1, fun here => ⟨each.1, here, each.2⟩⟩
  · unfold getMaxMin
    cases findByLBID em.tree lbid <;> rfl
  · rintro ⟨x, member, inside⟩
    refine ⟨_, congrArg (Option.map _) ((found x).mpr ⟨member, inside⟩), ?_⟩
    exact placed.lookupLocalBlock_eq member inside

/-- An extent of a column of eight bytes. -/
def bigintExtent (startLBID : Nat) (oid : Int) : EMEntry :=
  columnEntry startLBID 8 oid 8 1 .bigint ⟨0, 0, 0⟩

/-- The second of three columns is dropped. -/
def dropSecond : List Command :=
  [.createColumnExtentDBroot 3000 8 1 .bigint 0, .createColumnExtentDBroot 3001 8 1 .bigint 0,
    .createColumnExtentDBroot 3002 8 1 .bigint 0, .deleteOID 3001]

/-- The LBIDs of the other two are found where they are. -/
theorem lookupExact_dropSecond :
    ∃ em, execute (step oneRoot) Careful EM.initial dropSecond = some em ∧
      LookupExact oneRoot em 5 ∧ LookupExact oneRoot em 16389 := by
  have done : (execute (step oneRoot) Careful EM.initial dropSecond).map (·.tree.entries) =
      some [(0, bigintExtent 0 3000), (16384, bigintExtent 16384 3002)] := by
    decide +kernel
  obtain ⟨em, reached, entries⟩ := map_eq_some_iff.mp done
  have good := Good.of_reaches (reaches_of_execute reached)
  have both {p : Nat × EMEntry → Prop} : (∀ x ∈ em.tree.entries, p x) ↔
      p (0, bigintExtent 0 3000) ∧ p (16384, bigintExtent 16384 3002) := by
    simp [entries]
  have placed : Placed oneRoot em :=
    { keyed := good.spaced.keyed
      sized := good.spaced.sized
      apart := by
        have separate (lbid : Nat) : ¬ (Contains ⟨0, 8192⟩ lbid ∧ Contains ⟨16384, 8192⟩ lbid) := by
          simp only [Contains]
          omega
        exact both.mpr ⟨both.mpr ⟨fun _ _ _ => rfl, fun lbid first third =>
          absurd ⟨first, third⟩ (separate lbid)⟩, both.mpr ⟨fun lbid third first =>
          absurd ⟨first, third⟩ (separate lbid), fun _ _ _ => rfl⟩⟩
      indexed := good.indexed
      rooted := both.mpr (by decide)
      inFile := both.mpr (by decide)
      ownBlocks := both.mpr ⟨both.mpr ⟨fun _ _ _ _ _ _ => rfl, fun file => absurd file (by decide)⟩,
        both.mpr ⟨fun file => absurd file (by decide), fun _ _ _ _ _ _ => rfl⟩⟩ }
  refine ⟨em, reached, ?_, ?_⟩
  · exact (lookupExact_iff placed 5).mpr fun gap =>
      gap.1 ⟨(0, bigintExtent 0 3000), by simp [entries], by decide⟩
  · exact (lookupExact_iff placed 16389).mpr fun gap =>
      gap.1 ⟨(16384, bigintExtent 16384 3002), by simp [entries], by decide⟩

/-- Its LBIDs are then found in the first column. -/
theorem dropped_lbid_found : ∃ em, execute (step oneRoot) Careful EM.initial dropSecond = some em ∧
    ¬ LookupExact oneRoot em 9000 := by
  have done : ((execute (step oneRoot) Careful EM.initial dropSecond).map fun em =>
      (findByLBID em.tree 9000).map (·.2.range)) = some (some ⟨0, 8⟩) := by
    decide +kernel
  obtain ⟨em, reached, searched⟩ := map_eq_some_iff.mp done
  obtain ⟨x, found, range⟩ := map_eq_some_iff.mp searched
  refine ⟨em, reached, fun exact => ?_⟩
  have inside := ((exact.found x).mp found).2
  rw [range] at inside
  exact absurd inside (by decide)

end ExtentMap
