import ColumnStore.ExtentMapRecovery

/-!
# What the operations of the extent map preserve

Two facts about the map. Its tree and its free list divide the LBID space: every
block below 2^36 is in one extent or in one free range. And the index names the
extents of the tree under their DBRoot, OID and partition, each once. Every
operation is followed through the few steps it is made of.

Extents have at least one unit of 1024 blocks. Loading needs an image whose
extents are apart and have fewer than 256 units, and a map without extents;
reassigning extents to another DBRoot is excluded, as the index is not told.
-/

namespace ExtentMap

open LbidFreeList OrderedTable ExtentIndex SpanCover Procedures
open Table (mem_erase find?_eq_some mem_update)
open List (nodup_nil map_cons mem_cons_self mem_cons nodup_cons not_mem_nil mem_flatMap)

/-- How many extents contain the block. -/
def treeCover (tree : Tree) (x : Nat) : Nat := cover (tree.entries.map (·.2.range.span)) x

/-- The extents of the tree, the ranges just taken from the free list, and the free list divide
the LBID space. -/
structure Spaced (taken : List InlineLBIDRange) (tree : Tree) (freeList : FreeList) : Prop where
  keyed : ∀ e ∈ tree.entries, e.1 = e.2.range.start
  sized : ∀ e ∈ tree.entries, e.2.range.size ≠ 0
  aligned : ∀ e ∈ tree.entries, 1024 ∣ e.2.range.start
  takenSized : ∀ r ∈ taken, r.size ≠ 0
  takenAligned : ∀ r ∈ taken, 1024 ∣ r.start
  free : freeList.Sound
  covered : ∀ x, treeCover tree x + freeList.cover x + cover (taken.map InlineLBIDRange.span) x =
    if x < 2 ^ 36 then 1 else 0

/-- The index has each of the extents once, under its keys, and nothing else. -/
structure Indexed (extents : List (Nat × EMEntry)) (index : ExtentMapIndex) : Prop where
  once : ∀ k, (index.find k).Nodup
  names : ∀ k lbid, lbid ∈ index.find k ↔ ∃ e, (lbid, e) ∈ extents ∧ e.indexKey = k

/-- What holds of the map between two operations. -/
structure Good (em : EM) : Prop where
  spaced : Spaced [] em.tree em.freeList
  indexed : Indexed em.tree.entries em.index

variable {tree : Tree} {freeList : FreeList}

lemma Spaced.free_single {taken : List InlineLBIDRange} (spaced : Spaced taken tree freeList)
    (x : Nat) : freeList.cover x ≤ 1 := by
  have covered := spaced.covered x
  split at covered <;> omega

lemma initial_good : Good EM.initial where
  spaced :=
    { keyed := nofun
      sized := nofun
      aligned := nofun
      takenSized := nofun
      takenAligned := nofun
      free := FreeList.whole_sound 49
      covered := fun x => by
        rw [show treeCover EM.initial.tree x = 0 from rfl, EM.initial, FreeList.initial,
          FreeList.whole_cover]
        simp }
  indexed :=
    { once := fun _ => nodup_nil
      names := fun _ _ => ⟨nofun, nofun⟩ }

lemma getLBIDs_meets {size : Nat} (positive : size ≠ 0) :
    Meets Good (getLBIDsFromFreeList size)
      (fun lbid em => Spaced [⟨lbid, size⟩] em.tree em.freeList ∧
        Indexed em.tree.entries em.index) Good := by
  refine Meets.get_bind fun em good => ?_
  cases taken : em.freeList.getLBIDsFromFreeList size with
  | none => exact Meets.throw fun _ same => same ▸ good
  | some result =>
    obtain ⟨sound, aligned, covers⟩ := FreeList.getLBIDsFromFreeList_sound good.spaced.free
      good.spaced.free_single (Nat.pos_of_ne_zero positive) taken
    refine Meets.set_bind (Meets.pure fun _ same => ?_)
    subst same
    refine ⟨⟨good.spaced.keyed, good.spaced.sized, good.spaced.aligned, ?_, ?_, sound,
      fun x => ?_⟩, good.indexed⟩
    · simpa using positive
    · simpa using aligned
    have before := good.spaced.covered x
    have moved := covers x
    simp only [map_cons, cover_cons] at before ⊢
    omega

/-- A range that was just taken is the start of no extent. -/
lemma Spaced.fresh {r : InlineLBIDRange} (spaced : Spaced [r] tree freeList) :
    ∀ e ∈ tree.entries, e.1 ≠ r.start := by
  intro e member same
  have used := spaced.takenSized r mem_cons_self
  have usedE := spaced.sized e member
  have atStart := spaced.keyed e member
  have inTree : e.2.range.span.hit r.start ≤ treeCover tree r.start :=
    hit_le_cover (List.mem_map_of_mem (f := fun x : Nat × EMEntry => x.2.range.span) member) _
  rw [Span.hit_of_contains (by simp only [Span.Contains, InlineLBIDRange.span]; omega)] at inTree
  have covered := spaced.covered r.start
  rw [map_cons, cover_cons,
    Span.hit_of_contains (by simp only [Span.Contains, InlineLBIDRange.span]; omega)] at covered
  split at covered <;> omega

variable {e : EMEntry}

lemma Spaced.insert (spaced : Spaced [e.range] tree freeList) :
    Spaced [] (tree.insert e.range.start e) freeList := by
  have added := Table.insert_perm e spaced.fresh
  have listed : ∀ x ∈ (tree.insert e.range.start e).entries,
      x = (e.range.start, e) ∨ x ∈ tree.entries := fun x member => Table.mem_place member
  refine ⟨?_, ?_, ?_, nofun, nofun, spaced.free, fun x => ?_⟩
  · intro x member
    rcases listed x member with rfl | old
    · rfl
    · exact spaced.keyed x old
  · intro x member
    rcases listed x member with rfl | old
    · exact spaced.takenSized e.range mem_cons_self
    · exact spaced.sized x old
  · intro x member
    rcases listed x member with rfl | old
    · exact spaced.takenAligned e.range mem_cons_self
    · exact spaced.aligned x old
  have before := spaced.covered x
  have grown : treeCover (tree.insert e.range.start e) x = e.range.span.hit x + treeCover tree x :=
    (cover_perm (added.map _) x).trans (cover_cons _ _ x)
  simp only [map_cons, cover_cons] at before ⊢
  omega

variable {index : ExtentMapIndex}

lemma Indexed.perm {extents extents' : List (Nat × EMEntry)} (indexed : Indexed extents index)
    (same : extents.Perm extents') : Indexed extents' index :=
  ⟨indexed.once, fun k lbid => by simpa only [same.mem_iff] using indexed.names k lbid⟩

variable {key : Nat}

lemma Indexed.cons {extents : List (Nat × EMEntry)} (indexed : Indexed extents index)
    (fresh : ∀ x ∈ extents, x.1 ≠ key) :
    Indexed ((key, e) :: extents) (index.insert e.indexKey key) := by
  have absent : ∀ k, key ∉ index.find k := by
    intro k member
    obtain ⟨x, listed, _⟩ := (indexed.names k key).mp member
    exact fresh _ listed rfl
  refine ⟨fun k => ?_, fun k lbid => ?_⟩
  · rw [ExtentMapIndex.find_insert]
    split
    · refine List.Nodup.append (indexed.once _) (List.nodup_singleton _) ?_
      exact List.disjoint_singleton.mpr (absent _)
    · exact indexed.once k
  rw [ExtentMapIndex.find_insert]
  simp only [mem_cons, or_and_right, exists_or, ← indexed.names k lbid]
  split
  · rename_i same
    simp [same, or_comm]
  · rename_i other
    simp [Ne.symm other]

variable {thrown : EM → Prop}

lemma insertExtent_meets :
    Meets (fun em => Spaced [e.range] em.tree em.freeList ∧ Indexed em.tree.entries em.index)
      (insertExtent e) (fun _ => Good) thrown := by
  refine Meets.get_bind fun em holds => Meets.set ?_
  exact ⟨holds.1.insert, (holds.2.cons holds.1.fresh).perm (Table.insert_perm e holds.1.fresh).symm⟩

lemma Spaced.erase (spaced : Spaced [] tree freeList) (member : (key, e) ∈ tree.entries) :
    ∃ freeList' records, freeList.release e.range = some (freeList', records) ∧
      Spaced [] (tree.erase key) freeList' := by
  have removed := Table.erase_perm member
  obtain ⟨freeList', records, released, sound, covers⟩ :=
    FreeList.release_sound spaced.free (spaced.sized _ member) (spaced.aligned _ member)
  refine ⟨freeList', records, released, ?_⟩
  have listed : ∀ x ∈ (tree.erase key).entries, x ∈ tree.entries :=
    fun x inTree => (mem_erase.mp inTree).1
  refine ⟨fun x inTree => spaced.keyed x (listed x inTree),
    fun x inTree => spaced.sized x (listed x inTree),
    fun x inTree => spaced.aligned x (listed x inTree), spaced.takenSized, spaced.takenAligned,
    sound, fun x => ?_⟩
  have before := spaced.covered x
  have shrunk : treeCover tree x = e.range.span.hit x + treeCover (tree.erase key) x :=
    (cover_perm (removed.map _) x).trans (cover_cons _ _ x)
  have moved : freeList'.cover x = freeList.cover x + e.range.span.hit x := covers x
  omega

lemma Indexed.erase (indexed : Indexed tree.entries index) (member : (key, e) ∈ tree.entries) :
    ∃ index', index.deleteEMEntry e.indexKey key = some index' ∧
      Indexed (tree.erase key).entries index' := by
  have named : key ∈ index.find e.indexKey := (indexed.names _ _).mpr ⟨e, member, rfl⟩
  obtain ⟨index', deleted, here, elsewhere⟩ := ExtentMapIndex.find_deleteEMEntry named
  refine ⟨index', deleted, ⟨fun k => ?_, fun k lbid => ?_⟩⟩
  · by_cases same : k = e.indexKey
    · rw [same]
      exact here.nodup_iff.mpr ((indexed.once _).erase _)
    · rw [elsewhere k same]
      exact indexed.once k
  have left : (∃ x, (lbid, x) ∈ (tree.erase key).entries ∧ x.indexKey = k) ↔
      lbid ≠ key ∧ lbid ∈ index.find k := by
    simp [indexed.names, and_assoc, and_left_comm]
  rw [left]
  by_cases same : k = e.indexKey
  · rw [same, here.mem_iff, (indexed.once _).mem_erase_iff]
  rw [elsewhere k same, iff_and_self]
  rintro listed rfl
  obtain ⟨x, inTree, keys⟩ := (indexed.names k lbid).mp listed
  rw [tree.value_unique inTree member] at keys
  exact same keys.symm

lemma findByLBID_of_mem {lbid : Nat} (member : (lbid, e) ∈ tree.entries) :
    findByLBID tree lbid = some (lbid, e) := by
  rw [findByLBID, Table.lowerBound_of_mem member]
  exact if_pos rfl

lemma mem_of_findByLBID {lbid : Nat} {x : Nat × EMEntry} (found : findByLBID tree lbid = some x) :
    x ∈ tree.entries := by
  unfold findByLBID at found
  split at found
  · exact List.mem_of_getLast? (Option.filter_eq_some_iff.mp found).1
  rename_i above
  split at found
  · cases found
    exact List.mem_of_find?_eq_some above
  · exact List.takeWhile_sublist _ |>.mem (List.mem_of_getLast? found)

lemma mapM_eq_some {α β : Type} {f : α → Option β} {g : α → β} {l : List α}
    (each : ∀ a ∈ l, f a = some (g a)) : l.mapM f = some (l.map g) := by
  induction l with
  | nil => rfl
  | cons a rest ih =>
    rw [List.mapM_cons, each a mem_cons_self, ih fun b later => each b (.tail _ later)]
    rfl

variable {em : EM} {lbids : List Nat}

lemma getEmIteratorsByLbids_eq (present : ∀ lbid ∈ lbids, ∃ e, (lbid, e) ∈ em.tree.entries) :
    getEmIteratorsByLbids em lbids = some lbids := by
  have found : ∀ lbid ∈ lbids, (findByLBID em.tree lbid).map (·.1) = some (id lbid) := by
    intro lbid member
    obtain ⟨e, inTree⟩ := present lbid member
    rw [findByLBID_of_mem inTree]
    rfl
  rw [getEmIteratorsByLbids, mapM_eq_some found, List.map_id]

/-- The iterators to be visited are apart and stand at entries of the tree. -/
structure Visits (keys : List Nat) (tree : Tree) : Prop where
  nodup : keys.Nodup
  present : ∀ key ∈ keys, ∃ e, (key, e) ∈ tree.entries

/-- What holds in a loop over iterators. -/
def Visiting (keys : List Nat) (em : EM) : Prop := Good em ∧ Visits keys em.tree

variable {keys : List Nat}

lemma Visits.tail (visits : Visits (key :: keys) tree) : Visits keys tree :=
  ⟨(nodup_cons.mp visits.nodup).2, fun k member => visits.present k (.tail _ member)⟩

lemma Visits.erase (visits : Visits (key :: keys) tree) : Visits keys (tree.erase key) := by
  refine ⟨visits.tail.nodup, fun k member => ?_⟩
  obtain ⟨e, inTree⟩ := visits.tail.present k member
  refine ⟨e, mem_erase.mpr ⟨inTree, ?_⟩⟩
  rintro rfl
  exact (nodup_cons.mp visits.nodup).1 member

lemma Indexed.find_visits (indexed : Indexed tree.entries index) (k : IndexKey) :
    Visits (index.find k) tree := by
  refine ⟨indexed.once k, fun lbid member => ?_⟩
  obtain ⟨e, inTree, _⟩ := (indexed.names k lbid).mp member
  exact ⟨e, inTree⟩

lemma Indexed.findOID_visits (indexed : Indexed tree.entries index) (dbRoot : Nat) (oid : Int) :
    Visits (index.findOID dbRoot oid) tree := by
  refine ⟨ExtentMapIndex.findOID_nodup (fun p => indexed.once _) fun p q lbid inP inQ => ?_,
    fun lbid member => ?_⟩
  · obtain ⟨e, inTree, keys⟩ := (indexed.names _ lbid).mp inP
    obtain ⟨e', inTree', keys'⟩ := (indexed.names _ lbid).mp inQ
    rw [tree.value_unique inTree inTree'] at keys
    exact congrArg IndexKey.partitionNum (keys.symm.trans keys')
  · obtain ⟨p, inP⟩ := ExtentMapIndex.mem_findOID.mp member
    exact (indexed.find_visits _).present lbid inP

lemma iterators_run (visits : Visits lbids em.tree) : iterators lbids em = .ok lbids em := by
  change orThrow _ (getEmIteratorsByLbids em lbids) em = _
  rw [getEmIteratorsByLbids_eq visits.present]
  rfl

/-- All extents that meet `p` are still to be visited. -/
def Left (p : EMEntry → Prop) (keys : List Nat) (tree : Tree) : Prop :=
  ∀ x ∈ tree.entries, p x.2 → x.1 ∈ keys

lemma Left.erase {p : EMEntry → Prop} (left : Left p (key :: keys) tree) :
    Left p keys (tree.erase key) := by
  intro x member meets
  obtain ⟨inTree, other⟩ := mem_erase.mp member
  exact (mem_cons.mp (left x inTree meets)).resolve_left other

lemma deleteExtent_run {clearEMIndex : Bool}
    {records : List ImageDelta} (member : (key, e) ∈ em.tree.entries)
    (released : em.freeList.release e.range = some (freeList, records))
    (deleted : (if clearEMIndex then em.index.deleteEMEntry e.indexKey key else some em.index) =
      some index) :
    deleteExtent key clearEMIndex em = .ok ⟨⟩ (em.withoutExtent key e freeList records index) := by
  simp [deleteExtent, bind, EStateM.bind, get_run, orThrow, find?_eq_some.mpr member, released,
    deleted, pure, EStateM.pure, set_run]

variable {rest : List Nat}

lemma deleteExtent_meets {p q : Tree → Prop} (kept : ∀ tree, p tree → q (tree.erase key)) :
    Meets (fun em => Good em ∧ Visits (key :: rest) em.tree ∧ p em.tree) (deleteExtent key true)
      (fun _ em => Good em ∧ Visits rest em.tree ∧ q em.tree) thrown := by
  rintro em ⟨good, visits, holds⟩
  obtain ⟨e, member⟩ := visits.present key mem_cons_self
  obtain ⟨freeList, records, released, spaced⟩ := good.spaced.erase member
  obtain ⟨index, deleted, indexed⟩ := good.indexed.erase member
  rw [deleteExtent_run member released (by simpa using deleted)]
  exact ⟨⟨spaced, indexed⟩, visits.erase, kept _ holds⟩

/-- The index is right outside the keys that are being cleaned up. -/
structure IndexedExcept (p : IndexKey → Prop) (tree : Tree) (index : ExtentMapIndex) : Prop where
  once : ∀ k, (index.find k).Nodup
  names : ∀ k lbid, ¬ p k → (lbid ∈ index.find k ↔ ∃ e, (lbid, e) ∈ tree.entries ∧ e.indexKey = k)

lemma IndexedExcept.erase {p : IndexKey → Prop} (indexed : IndexedExcept p tree index)
    (member : (key, e) ∈ tree.entries) (cleaned : p e.indexKey) :
    IndexedExcept p (tree.erase key) index := by
  refine ⟨indexed.once, fun k lbid outside => (indexed.names k lbid outside).trans ?_⟩
  simp only [mem_erase]
  constructor
  · rintro ⟨x, inTree, keys⟩
    refine ⟨x, ⟨inTree, ?_⟩, keys⟩
    rintro rfl
    rw [tree.value_unique inTree member] at keys
    exact outside (keys ▸ cleaned)
  · rintro ⟨x, ⟨inTree, _⟩, keys⟩
    exact ⟨x, inTree, keys⟩

/-- While the extents of an OID on a DBRoot are deleted: those to go are the ones still left, and
the index is as it was. -/
structure Cleaning (dbRoot : Nat) (oid : Int) (index : ExtentMapIndex) (rest : List Nat) (em : EM) :
    Prop where
  spaced : Spaced [] em.tree em.freeList
  sameIndex : em.index = index
  indexed : IndexedExcept (fun k => k.dbRoot = dbRoot ∧ k.fileID = oid) em.tree index
  nodup : rest.Nodup
  present : ∀ k ∈ rest, ∃ e, (k, e) ∈ em.tree.entries ∧ e.dbRoot = dbRoot ∧ e.fileID = oid
  left : Left (fun e => e.dbRoot = dbRoot ∧ e.fileID = oid) rest em.tree

variable {dbRoot : Nat} {oid : Int}

lemma Cleaning.deleteExtent :
    Meets (Cleaning dbRoot oid index (key :: rest)) (ExtentMap.deleteExtent key false)
      (fun _ => Cleaning dbRoot oid index rest) thrown := by
  rintro em ⟨spaced, rfl, indexed, nodup, present, left⟩
  obtain ⟨e, member, meets⟩ := present key mem_cons_self
  obtain ⟨freeList, records, released, spaced'⟩ := spaced.erase member
  rw [deleteExtent_run member released (rfl : (if false then _ else some em.index) = some em.index)]
  refine ⟨spaced', rfl, indexed.erase member meets, (nodup_cons.mp nodup).2,
    fun k later => ?_, left.erase⟩
  obtain ⟨x, inTree, meetsX⟩ := present k (.tail _ later)
  refine ⟨x, mem_erase.mpr ⟨inTree, ?_⟩, meetsX⟩
  rintro rfl
  exact (nodup_cons.mp nodup).1 later

/-- The extents an OID has on a DBRoot are those the index finds. -/
lemma Good.cleaning (good : Good em) (dbRoot : Nat) (oid : Int) :
    Cleaning dbRoot oid em.index (em.index.findOID dbRoot oid) em where
  spaced := good.spaced
  sameIndex := rfl
  indexed := ⟨good.indexed.once, fun k lbid _ => good.indexed.names k lbid⟩
  nodup := (good.indexed.findOID_visits dbRoot oid).nodup
  present lbid member := by
    obtain ⟨p, inP⟩ := ExtentMapIndex.mem_findOID.mp member
    obtain ⟨e, inTree, keys⟩ := (good.indexed.names _ lbid).mp inP
    exact ⟨e, inTree, congrArg IndexKey.dbRoot keys, congrArg IndexKey.fileID keys⟩
  left x inTree meets := by
    refine ExtentMapIndex.mem_findOID.mpr ⟨x.2.partitionNum, (good.indexed.names _ _).mpr ?_⟩
    exact ⟨x.2, inTree, by rw [EMEntry.indexKey, meets.1, meets.2]⟩

lemma Cleaning.done (cleaning : Cleaning dbRoot oid index [] em) :
    Good { em with index := em.index.deleteOID dbRoot oid } := by
  refine ⟨cleaning.spaced, ⟨fun k => ?_, fun k lbid => ?_⟩⟩ <;>
    rw [cleaning.sameIndex, ExtentMapIndex.find_deleteOID]
  · split
    · exact nodup_nil
    · exact cleaning.indexed.once k
  split
  · rename_i cleaned
    refine iff_of_false not_mem_nil ?_
    rintro ⟨e, inTree, rfl⟩
    exact not_mem_nil (cleaning.left _ inTree cleaned)
  · rename_i outside
    exact cleaning.indexed.names k lbid outside

lemma deleteOIDFrom_keeps (dbRoot : Nat) (oid : Int) : Keeps Good (deleteOIDFrom dbRoot oid) := by
  refine Meets.get_bind fun em good => ?_
  refine Meets.run_bind (iterators_run (good.indexed.findOID_visits dbRoot oid)) ?_
  have loop : Meets (Cleaning dbRoot oid em.index (em.index.findOID dbRoot oid))
      ((em.index.findOID dbRoot oid).forM (deleteExtent · false))
      (fun _ => Cleaning dbRoot oid em.index []) Good :=
    Meets.forM fun _ _ => Cleaning.deleteExtent
  refine Meets.bind (loop.start (good.cleaning dbRoot oid)) fun _ => ?_
  exact Meets.bind (Meets.modify fun _ cleaning => cleaning.done) fun _ => Keeps.pure

lemma deleteOID_keeps (cfg : Config) (oid : Int) : Keeps Good (deleteOID cfg oid) := by
  refine Keeps.bind (Keeps.foldlM fun _ _ _ => deleteOIDFrom_keeps _ _) fun oidExists => ?_
  cases oidExists with
  | true => exact Keeps.pure
  | false => exact Keeps.throw

lemma deleteOIDs_keeps (cfg : Config) (oids : List Int) : Keeps Good (deleteOIDs cfg oids) :=
  Keeps.forM fun _ => Keeps.forM fun _ => Keeps.bind (deleteOIDFrom_keeps _ _) fun _ => Keeps.pure

lemma deleteExtent_visit :
    Meets (Visiting (key :: rest)) (deleteExtent key true)
      (fun _ => Visiting rest) thrown :=
  (deleteExtent_meets (q := fun _ => True) fun _ h => h).weaken
    (fun _ h => ⟨h.1, h.2, trivial⟩) (fun _ _ h => ⟨h.1, h.2.1⟩) fun _ h => h

lemma pure_visit {α : Type} {a : α} :
    Meets (Visiting (key :: rest)) (pure a : Op α) (fun _ => Visiting rest) thrown :=
  Meets.pure fun _ h => ⟨h.1, h.2.tail⟩

lemma entry_bind {α : Type} {next : EMEntry → Op α} {after : α → EM → Prop}
    (follow : ∀ e, Meets (Visiting (key :: rest)) (next e) after thrown) :
    Meets (Visiting (key :: rest))
      (do let em ← get; let e ← orThrow .undefinedBehaviour (em.tree.find? key); next e)
      after thrown := by
  refine Meets.get_bind fun em holds => ?_
  obtain ⟨e, member⟩ := holds.2.present key mem_cons_self
  rw [find?_eq_some.mpr member]
  exact Meets.run_bind rfl ((follow e).start holds)

lemma visit_keeps {β : Type} {next : β → Nat → EMEntry → Op β} {b : β} (good : Good em)
    (visits : Visits keys em.tree) (step : ∀ b key rest e, Meets (Visiting (key :: rest))
      (next b key e) (fun _ => Visiting rest) Good) :
    Meets (· = em) (keys.foldlM (fun b key => do
      let em ← get; let e ← orThrow .undefinedBehaviour (em.tree.find? key); next b key e) b)
      (fun _ => Good) Good :=
  ((Meets.foldlM fun b key rest => entry_bind (step b key rest)).weaken
    (fun _ h => h) (fun _ _ h => h.1) fun _ h => h).start ⟨good, visits⟩

lemma deleteSegment_keeps (oid : Int) (partition : LogicalPartition)
    (found : List LogicalPartition) : Keeps Good (deleteSegment oid partition found) := by
  refine Meets.get_bind fun em good => ?_
  have visits := good.indexed.find_visits ⟨partition.dbroot, oid, partition.pp⟩
  refine Meets.run_bind (iterators_run visits) (visit_keeps good visits fun found key rest e => ?_)
  split
  · exact pure_visit
  · exact deleteExtent_visit.returns

lemma deletePartition_keeps (oids : List Int) (partitionNums : List LogicalPartition) :
    Keeps Good (deletePartition oids partitionNums) := by
  unfold deletePartition
  split
  · exact Keeps.pure
  refine Keeps.bind (Keeps.foldlM fun _ _ _ => Keeps.foldlM fun _ _ _ => deleteSegment_keeps _ _ _)
    fun found => ?_
  split
  · exact Keeps.throw
  · split
    · exact Keeps.throw
    · exact Keeps.pure

lemma deleteDBRoot_keeps (dbRoot : Nat) : Keeps Good (deleteDBRoot dbRoot) := by
  refine Meets.get_bind fun em good => ?_
  have visits :
      Visits ((em.tree.entries.filter fun e => e.2.dbRoot = dbRoot).map (·.1)) em.tree := by
    refine ⟨em.tree.keys_nodup.sublist (List.filter_sublist.map _), fun key member => ?_⟩
    obtain ⟨x, listed, rfl⟩ := List.mem_map.mp member
    exact ⟨x.2, (List.mem_filter.mp listed).1⟩
  have left : Left (fun e => e.dbRoot = dbRoot)
      ((em.tree.entries.filter fun e => e.2.dbRoot = dbRoot).map (·.1)) em.tree :=
    fun x inTree meets => List.mem_map_of_mem (List.mem_filter.mpr ⟨inTree, by simpa using meets⟩)
  have loop : ∀ keys : List Nat, Meets
      (fun em => Good em ∧ Visits keys em.tree ∧ Left (fun e => e.dbRoot = dbRoot) keys em.tree)
      (keys.forM (deleteExtent · true))
      (fun _ em => Good em ∧ Visits [] em.tree ∧
        Left (fun e => e.dbRoot = dbRoot) [] em.tree) Good :=
    fun keys => Meets.forM (h := fun keys em =>
      Good em ∧ Visits keys em.tree ∧ Left (fun e => e.dbRoot = dbRoot) keys em.tree)
      fun _ _ => deleteExtent_meets fun _ left => left.erase
  refine Meets.bind ((loop _).start ⟨good, visits, left⟩) fun _ => ?_
  refine Meets.modify fun s holds => ⟨holds.1.spaced, ⟨fun k => ?_, fun k lbid => ?_⟩⟩ <;>
    rw [ExtentMapIndex.find_deleteDbRoot]
  · split
    · exact nodup_nil
    · exact holds.1.indexed.once k
  split
  · rename_i cleaned
    refine iff_of_false not_mem_nil ?_
    rintro ⟨e, inTree, rfl⟩
    exact not_mem_nil (holds.2.2 _ inTree cleaned)
  · exact holds.1.indexed.names k lbid

lemma getEmIdentsByLbids_eq (present : ∀ lbid ∈ lbids, ∃ e, (lbid, e) ∈ em.tree.entries) :
    ∃ entries, getEmIdentsByLbids em lbids = some entries ∧
      ∀ e, e ∈ entries ↔ ∃ lbid ∈ lbids, (lbid, e) ∈ em.tree.entries := by
  induction lbids with
  | nil => exact ⟨[], rfl, by simp⟩
  | cons lbid rest ih =>
    obtain ⟨e, inTree⟩ := present lbid mem_cons_self
    obtain ⟨entries, found, listed⟩ := ih fun l later => present l (.tail _ later)
    refine ⟨e :: entries, ?_, fun x => ?_⟩
    · rw [getEmIdentsByLbids, List.mapM_cons, findByLBID_of_mem inTree]
      change (getEmIdentsByLbids em rest).bind (fun entries => some (e :: entries)) = _
      rw [found]
      rfl
    rw [mem_cons, listed]
    constructor
    · rintro (rfl | ⟨l, later, inTree'⟩)
      · exact ⟨lbid, mem_cons_self, inTree⟩
      · exact ⟨l, .tail _ later, inTree'⟩
    rintro ⟨l, member, inTree'⟩
    rcases mem_cons.mp member with rfl | later
    · exact .inl (em.tree.value_unique inTree' inTree)
    · exact .inr ⟨l, later, inTree'⟩

section

variable (indexed : Indexed em.tree.entries em.index)
include indexed

lemma entries_eq (chosen : IndexKey → Prop)
    (lists : ∀ lbid, lbid ∈ lbids ↔ ∃ k, chosen k ∧ lbid ∈ em.index.find k) :
    ∃ entries, getEmIdentsByLbids em lbids = some entries ∧
      ∀ e, e ∈ entries ↔ (∃ lbid, (lbid, e) ∈ em.tree.entries) ∧ chosen e.indexKey := by
  have present : ∀ lbid ∈ lbids, ∃ e, (lbid, e) ∈ em.tree.entries := by
    intro lbid member
    obtain ⟨k, _, inK⟩ := (lists lbid).mp member
    exact (indexed.find_visits k).present lbid inK
  obtain ⟨entries, found, listed⟩ := getEmIdentsByLbids_eq present
  refine ⟨entries, found, fun e => (listed e).trans ?_⟩
  constructor
  · rintro ⟨lbid, member, inTree⟩
    obtain ⟨k, isChosen, inK⟩ := (lists lbid).mp member
    obtain ⟨e', inTree', rfl⟩ := (indexed.names k lbid).mp inK
    rw [em.tree.value_unique inTree inTree']
    exact ⟨⟨lbid, inTree'⟩, isChosen⟩
  · rintro ⟨⟨lbid, inTree⟩, isChosen⟩
    exact ⟨lbid, (lists lbid).mpr ⟨_, isChosen, (indexed.names _ _).mpr ⟨e, inTree, rfl⟩⟩, inTree⟩

lemma entriesAt_eq (keys : List IndexKey) :
    ∃ entries, entriesAt em keys = some entries ∧
      ∀ e, e ∈ entries ↔ (∃ lbid, (lbid, e) ∈ em.tree.entries) ∧ e.indexKey ∈ keys :=
  entries_eq indexed _ fun _ => mem_flatMap

lemma entriesOfOID_eq (dbRoot : Nat) (oid : Int) :
    ∃ entries, getEmIdentsByLbids em (em.index.findOID dbRoot oid) = some entries ∧
      ∀ e, e ∈ entries ↔
        (∃ lbid, (lbid, e) ∈ em.tree.entries) ∧ e.dbRoot = dbRoot ∧ e.fileID = oid := by
  refine entries_eq indexed (fun k => k.dbRoot = dbRoot ∧ k.fileID = oid) fun lbid => ?_
  rw [ExtentMapIndex.mem_findOID]
  constructor
  · rintro ⟨p, inP⟩
    exact ⟨_, ⟨rfl, rfl⟩, inP⟩
  · rintro ⟨k, ⟨rfl, rfl⟩, inK⟩
    exact ⟨_, inK⟩

lemma choosePlace_isSome (cfg : Config) (oid : Int)
    (colWidth dbRoot partitionNum : Nat) :
    ∃ place, choosePlace cfg em oid colWidth dbRoot partitionNum = some place := by
  obtain ⟨own, found, _⟩ := entriesOfOID_eq indexed dbRoot oid
  have others : ∀ keys, ∃ entries, entriesAt em keys = some entries := fun keys =>
    (entriesAt_eq indexed keys).imp fun _ h => h.1
  simp only [choosePlace, found, Option.bind_eq_bind, Option.bind_some]
  split
  · obtain ⟨there, foundThere⟩ := others _
    rw [foundThere]
    exact ⟨_, rfl⟩
  obtain ⟨ownLast, foundOwn⟩ := others _
  obtain ⟨othersNext, foundNext⟩ := others _
  obtain ⟨othersLast, foundLast⟩ := others _
  rw [foundOwn, foundNext, foundLast]
  exact ⟨_, rfl⟩

end

/-- The shape of the functions that create an extent: take a range, choose the place from what
the map holds, insert. -/
lemma create_keeps {β γ : Type} {size : Nat} (positive : size ≠ 0) {choose : EM → Option β}
    {entry : Nat → β → EMEntry} {result : Nat → β → γ}
    (chosen : ∀ em, Indexed em.tree.entries em.index → ∃ b, choose em = some b)
    (ranges : ∀ lbid b, (entry lbid b).range = ⟨lbid, size⟩) :
    Keeps Good (do
      let lbid ← getLBIDsFromFreeList size
      let em ← get
      let b ← orThrow .lbidNotAllocated (choose em)
      insertExtent (entry lbid b)
      pure (result lbid b)) := by
  refine Meets.bind (getLBIDs_meets positive) fun lbid => Meets.get_bind fun em holds => ?_
  obtain ⟨b, found⟩ := chosen em holds.2
  rw [found]
  refine Meets.run_bind rfl (Meets.bind (insertExtent_meets.start ?_) fun _ => Keeps.pure)
  rw [ranges]
  exact holds

variable {partitionNum : Nat}

lemma createColumnExtentDBroot_keeps {cfg : Config} {colWidth : Nat}
    {colDataType : ColumnTypes.ColDataType} (positive : extentSize colWidth / 1024 ≠ 0) :
    Keeps Good (createColumnExtentDBroot cfg oid colWidth dbRoot colDataType partitionNum) :=
  create_keeps positive (fun _ indexed => choosePlace_isSome indexed cfg oid colWidth dbRoot _)
    fun _ _ => rfl

lemma createStripeColumnExtents_keeps {cfg : Config} {cols : List StripeColumn}
    (positive : ∀ col ∈ cols, extentSize col.width / 1024 ≠ 0) :
    Keeps Good (createStripeColumnExtents cfg cols dbRoot partitionNum) := by
  refine Keeps.bind (Keeps.foldlM fun carried col member => ?_) fun _ => Keeps.pure
  refine Keeps.bind (createColumnExtentDBroot_keeps (positive col member)) fun chosen => ?_
  dsimp only
  split
  · exact Keeps.pure
  · split
    · exact Keeps.throw
    · exact Keeps.pure

variable {segmentNum : Nat}

lemma createColumnExtentExactFile_keeps {colWidth : Nat} {colDataType : ColumnTypes.ColDataType}
    (positive : extentSize colWidth / 1024 ≠ 0) :
    Keeps Good (createColumnExtentExactFile oid colWidth dbRoot partitionNum segmentNum
      colDataType) :=
  create_keeps positive (fun _ indexed => (entriesAt_eq indexed _).imp fun _ h => h.1)
    fun _ _ => rfl

lemma createDictStoreExtent_keeps :
    Keeps Good (createDictStoreExtent oid dbRoot partitionNum segmentNum) :=
  create_keeps (by decide) (fun _ indexed => (entriesAt_eq indexed _).imp fun _ h => h.1)
    fun _ _ => rfl

section Update

variable {tree : Tree} {key : Nat} {change : EMEntry → EMEntry}

lemma treeCover_update (ranges : ∀ e, (key, e) ∈ tree.entries → (change e).range = e.range)
    (x : Nat) : treeCover (tree.update key change) x = treeCover tree x := by
  rw [treeCover, Table.update, List.map_map]
  refine congrArg (cover · x) (List.map_congr_left fun e member => ?_)
  simp only [Function.comp_apply]
  split
  · rename_i atKey
    subst atKey
    rw [ranges e.2 member]
  · rfl

lemma Spaced.update {taken : List InlineLBIDRange} (spaced : Spaced taken tree freeList)
    (ranges : ∀ e, (key, e) ∈ tree.entries → (change e).range = e.range) :
    Spaced taken (tree.update key change) freeList := by
  have old : ∀ x ∈ (tree.update key change).entries,
      ∃ y ∈ tree.entries, x.1 = y.1 ∧ x.2.range = y.2.range := by
    intro x member
    obtain ⟨y, inTree, rfl⟩ := mem_update.mp member
    refine ⟨y, inTree, ?_⟩
    split
    · rename_i atKey
      subst atKey
      exact ⟨rfl, ranges y.2 inTree⟩
    · exact ⟨rfl, rfl⟩
  refine ⟨fun x member => ?_, fun x member => ?_, fun x member => ?_, spaced.takenSized,
    spaced.takenAligned, spaced.free, fun x => ?_⟩
  · obtain ⟨y, inTree, keys, range⟩ := old x member
    rw [keys, range]
    exact spaced.keyed y inTree
  · obtain ⟨y, inTree, _, range⟩ := old x member
    rw [range]
    exact spaced.sized y inTree
  · obtain ⟨y, inTree, _, range⟩ := old x member
    rw [range]
    exact spaced.aligned y inTree
  · rw [treeCover_update ranges]
    exact spaced.covered x

lemma Indexed.update (indexed : Indexed tree.entries index)
    (keys : ∀ e, (key, e) ∈ tree.entries → (change e).indexKey = e.indexKey) :
    Indexed (tree.update key change).entries index := by
  refine ⟨indexed.once, fun k lbid => (indexed.names k lbid).trans ?_⟩
  constructor
  · rintro ⟨e, inTree, rfl⟩
    by_cases atKey : lbid = key
    · subst atKey
      exact ⟨change e, mem_update.mpr ⟨_, inTree, by simp⟩, keys e inTree⟩
    · exact ⟨e, mem_update.mpr ⟨_, inTree, by simp [atKey]⟩, rfl⟩
  rintro ⟨e, member, rfl⟩
  obtain ⟨y, inTree, same⟩ := mem_update.mp member
  split at same
  · rename_i atKey
    subst atKey
    cases same
    exact ⟨y.2, inTree, (keys y.2 inTree).symm⟩
  · cases same
    exact ⟨e, inTree, rfl⟩

lemma Visits.update (visits : Visits rest tree) : Visits rest (tree.update key change) := by
  refine ⟨visits.nodup, fun k member => ?_⟩
  obtain ⟨e, inTree⟩ := visits.present k member
  by_cases atKey : k = key
  · exact ⟨change e, mem_update.mpr ⟨_, inTree, by simp [atKey]⟩⟩
  · exact ⟨e, mem_update.mpr ⟨_, inTree, by simp [atKey]⟩⟩

end Update

/-- An update that leaves the range and the keys of the entry. -/
lemma updateEntry_visit {change : EMEntry → EMEntry} (ranges : ∀ e, (change e).range = e.range)
    (keys : ∀ e, (change e).indexKey = e.indexKey) :
    Meets (Visiting (key :: rest)) (updateEntry key change)
      (fun _ => Visiting rest) thrown := by
  rintro em ⟨good, visits⟩
  obtain ⟨e, member⟩ := visits.present key mem_cons_self
  have run : updateEntry key change em = .ok ⟨⟩ (em.withUpdate key e change) := by
    simp [updateEntry, bind, EStateM.bind, get_run, orThrow, find?_eq_some.mpr member, pure,
      EStateM.pure, set_run]
  rw [run]
  exact ⟨⟨good.spaced.update fun e _ => ranges e, good.indexed.update fun e _ => keys e⟩,
    visits.tail.update⟩

lemma carryOut_visit (decision : Decision) :
    Meets (Visiting (key :: rest)) (carryOut key decision)
      (fun _ => Visiting rest) thrown := by
  cases decision with
  | keep => exact pure_visit
  | resetHWM hwm => exact updateEntry_visit (fun _ => rfl) fun _ => rfl
  | delete => exact deleteExtent_visit

lemma carryOutOnCopy_visit (decision : Decision) :
    Meets (Visiting (key :: rest)) (carryOutOnCopy key decision)
      (fun _ => Visiting rest) thrown := by
  cases decision with
  | resetHWM hwm => exact updateEntry_visit (fun _ => rfl) fun _ => rfl
  | keep => exact carryOut_visit .keep
  | delete => exact carryOut_visit .delete

/-- A value that may be missing is needed; without it the state stays as it is. -/
lemma orThrow_bind {α β : Type} {e : EMError} {found : Option α} {next : α → Op β}
    {before : EM → Prop} {after : β → EM → Prop} (left : ∀ em, before em → thrown em)
    (follow : ∀ a, Meets before (next a) after thrown) :
    Meets before (orThrow e found >>= next) after thrown := by
  cases found with
  | none => exact Meets.bind (Meets.throw left) fun a => follow a
  | some a => exact follow a

lemma rollbackColumnExtentsDBroot_keeps {bDeleteAll : Bool} {hwm : Nat} :
    Keeps Good (rollbackColumnExtentsDBroot oid bDeleteAll dbRoot partitionNum segmentNum hwm) := by
  refine Meets.get_bind fun em good => ?_
  have visits := good.indexed.findOID_visits dbRoot oid
  refine Meets.run_bind (iterators_run visits)
    (Meets.returns (visit_keeps good visits fun stripe key rest e => ?_))
  split
  · exact pure_visit
  split
  · exact (carryOut_visit _).returns
  · exact orThrow_bind (fun _ h => h.1) fun stripe => (carryOut_visit _).returns

lemma rollbackDictStoreExtentsDBroot_keeps {segNums hwms : List Nat} :
    Keeps Good (rollbackDictStoreExtentsDBroot oid dbRoot partitionNum segNums hwms) := by
  refine Meets.get_bind fun em good => ?_
  have visits := good.indexed.findOID_visits dbRoot oid
  refine Meets.run_bind (iterators_run visits)
    (Meets.returns (visit_keeps good visits fun segToHwm key rest e => ?_))
  split
  · exact pure_visit
  split
  · exact (carryOut_visit _).returns
  · exact orThrow_bind (fun _ h => h.1) fun segToHwm => (carryOut_visit _).returns

lemma deleteEmptyColExtents_keeps (extentsInfo : List ExtentInfo) :
    Keeps Good (deleteEmptyColExtents extentsInfo) := by
  refine Meets.returns (Keeps.foldlM fun stripe info _ => ?_)
  refine Meets.get_bind fun em good => ?_
  have visits := good.indexed.find_visits ⟨info.dbRoot, info.oid, info.partitionNum⟩
  refine Meets.run_bind (iterators_run visits) (visit_keeps good visits fun stripe key rest e => ?_)
  split
  · exact pure_visit
  · exact orThrow_bind (fun _ h => h.1) fun stripe => (carryOutOnCopy_visit _).returns

lemma deleteEmptyDictStoreExtents_keeps (extentsInfo : List ExtentInfo) :
    Keeps Good (deleteEmptyDictStoreExtents extentsInfo) := by
  refine orThrow_bind (fun _ h => h) fun first => ?_
  refine Meets.returns (Keeps.foldlM fun stripe info _ => ?_)
  refine Meets.get_bind fun em good => ?_
  have visits := good.indexed.find_visits ⟨info.dbRoot, info.oid, info.partitionNum⟩
  refine Meets.run_bind (iterators_run visits) (visit_keeps good visits fun stripe key rest e => ?_)
  split
  · exact (carryOut_visit _).returns
  split
  · exact pure_visit
  · exact orThrow_bind (fun _ h => h.1) fun stripe => (carryOutOnCopy_visit _).returns

/-- Each reassignment leaves the extent on the DBRoot it is on. -/
def SameDBRoots (em : EM) (args : List (Nat × Nat)) : Prop :=
  ∀ arg ∈ args, ∀ x, findByLBID em.tree arg.1 = some x → x.2.dbRoot = arg.2

lemma growFLShmseg_keeps : Keeps Good growFLShmseg := by
  refine Meets.modify fun em good => ⟨?_, good.indexed⟩
  have grown := FreeList.growFLShmseg_moved em.freeList
  refine ⟨good.spaced.keyed, good.spaced.sized, good.spaced.aligned, good.spaced.takenSized,
    good.spaced.takenAligned, good.spaced.free.moved grown, fun x => ?_⟩
  have same : em.freeList.growFLShmseg.cover x = em.freeList.cover x := grown.covers x
  rw [same]
  exact good.spaced.covered x

end ExtentMap
