import ColumnStore.ExtentMapInvariant

/-!
# Loading the extent map

`loadVersion4or5` makes the tree and the free list from the image and adds every
extent to the index. On a map without extents, from an image whose extents are
apart, lie in the LBID space and have at most 255 units, it ends in a map whose
tree and free list divide the space and whose index is right. The bound is that of
the size argument of `reserveLBIDRange`.
-/

namespace ExtentMap

open LbidFreeList OrderedTable SpanCover Procedures List

/-- An image that can be loaded. -/
structure ImageOk (image : List EMEntry) : Prop where
  sized : ∀ e ∈ image, e.range.size ≠ 0
  eightBits : ∀ e ∈ image, e.range.size < 256
  aligned : ∀ e ∈ image, 1024 ∣ e.range.start
  inside : ∀ e ∈ image, e.range.blockEnd ≤ 2 ^ 36
  apart : image.Pairwise fun a b =>
    a.range.blockEnd ≤ b.range.start ∨ b.range.blockEnd ≤ a.range.start

instance (image : List EMEntry) : Decidable (ImageOk image) :=
  decidable_of_iff
    ((∀ e ∈ image, e.range.size ≠ 0) ∧ (∀ e ∈ image, e.range.size < 256) ∧
      (∀ e ∈ image, 1024 ∣ e.range.start) ∧ (∀ e ∈ image, e.range.blockEnd ≤ 2 ^ 36) ∧
      image.Pairwise fun a b =>
        a.range.blockEnd ≤ b.range.start ∨ b.range.blockEnd ≤ a.range.start)
    ⟨fun ⟨a, b, c, d, e⟩ => ⟨a, b, c, d, e⟩, fun ⟨a, b, c, d, e⟩ => ⟨a, b, c, d, e⟩⟩

variable {image : List EMEntry}

lemma cover_le_of_apart (inside : ∀ e ∈ image, e.range.blockEnd ≤ 2 ^ 36)
    (apart : image.Pairwise fun a b =>
      a.range.blockEnd ≤ b.range.start ∨ b.range.blockEnd ≤ a.range.start) (x : Nat) :
    cover (image.map (·.range.span)) x ≤ if x < 2 ^ 36 then 1 else 0 := by
  induction image with
  | nil => exact Nat.zero_le _
  | cons e rest ih =>
    obtain ⟨others, restApart⟩ := pairwise_cons.mp apart
    rw [map_cons, cover_cons]
    by_cases hit : e.range.span.Contains x
    · -- no other extent has the block
      have alone : cover (rest.map (·.range.span)) x = 0 := by
        refine countP_eq_zero.mpr fun s member => ?_
        obtain ⟨b, inRest, rfl⟩ := mem_map.mp member
        have away := others b inRest
        have hit : e.range.start ≤ x ∧ x < e.range.blockEnd := hit
        simp only [decide_eq_true_eq]
        intro both
        have both : b.range.start ≤ x ∧ x < b.range.blockEnd := both
        omega
      have low : x < e.range.blockEnd := hit.2
      have bound := inside e mem_cons_self
      rw [Span.hit_of_contains hit, alone, if_pos (by omega)]
    · rw [Span.hit, if_neg hit, Nat.zero_add]
      exact ih (fun b later => inside b (.tail _ later)) restApart

lemma ImageOk.starts_nodup (ok : ImageOk image) : (image.map (·.range.start)).Nodup := by
  refine pairwise_map.mpr (ok.apart.imp_of_mem fun {a b} inA inB away same => ?_)
  have usedA := ok.sized a inA
  have usedB := ok.sized b inB
  simp only [InlineLBIDRange.blockEnd] at away
  omega

lemma foldl_insert_perm {tree : Tree} (nodup : (image.map (·.range.start)).Nodup)
    (fresh : ∀ e ∈ image, ∀ x ∈ tree.entries, x.1 ≠ e.range.start) :
    (image.foldl (fun tree e => tree.insert e.range.start e) tree).entries.Perm
      (image.map (fun e => (e.range.start, e)) ++ tree.entries) := by
  induction image generalizing tree with
  | nil => exact .refl _
  | cons e rest ih =>
    obtain ⟨notLater, restNodup⟩ := nodup_cons.mp nodup
    have added := Table.insert_perm e (fresh e mem_cons_self)
    refine (ih restNodup fun b later x member => ?_).trans
      ((added.append_left _).trans perm_middle)
    rcases Table.mem_place member with rfl | old
    · intro same
      exact notLater (mem_map.mpr ⟨b, later, same.symm⟩)
    · exact fresh b (.tail _ later) x old

lemma ImageOk.loadedTree_perm (ok : ImageOk image) :
    (loadedTree image).entries.Perm (image.map fun e => (e.range.start, e)) := by
  have loaded : (loadedTree image).entries.Perm
      (image.map (fun e => (e.range.start, e)) ++ (Table.empty : Tree).entries) :=
    foldl_insert_perm ok.starts_nodup fun _ _ _ member => absurd member not_mem_nil
  simpa [Table.empty] using loaded

/-- While a map is loaded: the extents done are cut out of the free list and in the index. -/
structure Loading (tree : Tree) (rest : List (Nat × EMEntry)) (em : EM) : Prop where
  sameTree : em.tree = tree
  free : em.freeList.Sound
  divided : ∃ done, tree.entries = done ++ rest ∧ Indexed done em.index ∧
    ∀ x, em.freeList.cover x + cover (done.map (·.2.range.span)) x = if x < 2 ^ 36 then 1 else 0

/-- Ranges within the LBID space have sizes of 32 bits. -/
lemma size_lt_of_cover_le {fl : FreeList} (low : ∀ x, fl.cover x ≤ if x < 2 ^ 36 then 1 else 0) :
    ∀ r ∈ fl.slots, r.size < 2 ^ 32 := by
  intro r member
  by_contra large
  have hit : r.span.hit (r.start + 2 ^ 36) ≤ fl.cover (r.start + 2 ^ 36) :=
    hit_le_cover (mem_map_of_mem member) _
  rw [Span.hit_of_contains (by simp only [Span.Contains, InlineLBIDRange.span]; omega)] at hit
  have outside := low (r.start + 2 ^ 36)
  rw [if_neg (by omega)] at outside
  omega

lemma Loading.step {tree : Tree} {key : Nat} {e : EMEntry} {rest : List (Nat × EMEntry)} {em : EM}
    (loading : Loading tree ((key, e) :: rest) em)
    (low : ∀ x, treeCover tree x ≤ if x < 2 ^ 36 then 1 else 0)
    (sized : ∀ x ∈ tree.entries, x.2.range.size ≠ 0)
    (eightBits : ∀ x ∈ tree.entries, x.2.range.size < 256)
    (aligned : ∀ x ∈ tree.entries, 1024 ∣ x.2.range.start) :
    ∃ freeList records, em.freeList.reserveLBIDRange e.range.start e.range.size =
        some (freeList, records) ∧
      Loading tree rest { em with
        freeList := freeList
        undoRecords := em.undoRecords ++ records
        index := em.index.insert e.indexKey key } := by
  obtain ⟨done, split, indexed, covered⟩ := loading.divided
  have member : (key, e) ∈ tree.entries := by
    rw [split]
    exact mem_append_right _ mem_cons_self
  have parts : ∀ x, treeCover tree x = cover (done.map (·.2.range.span)) x +
      (e.range.span.hit x + cover (rest.map (·.2.range.span)) x) := by
    intro x
    rw [treeCover, split, map_append, cover_append, map_cons, cover_cons]
  have below : ∀ x, em.freeList.cover x ≤ if x < 2 ^ 36 then 1 else 0 := by
    intro x
    have here := covered x
    omega
  have single : ∀ x, em.freeList.cover x ≤ 1 := by
    intro x
    have here := below x
    split at here <;> omega
  have free : ∀ x, e.range.span.hit x ≤ em.freeList.cover x := by
    intro x
    have here := covered x
    have all := parts x
    have most := low x
    omega
  obtain ⟨freeList, records, reserved, sound, covers⟩ :=
    FreeList.reserveLBIDRange_sound loading.free
    single (size_lt_of_cover_le below) free (sized _ member) (eightBits _ member) (aligned _ member)
  have fresh : ∀ x ∈ done, x.1 ≠ key := by
    intro x inDone
    have ascending := tree.ascending
    rw [split] at ascending
    exact ne_of_lt ((pairwise_append.mp ascending).2.2 x inDone (key, e) mem_cons_self)
  refine ⟨freeList, records, reserved, loading.sameTree, sound, done ++ [(key, e)], ?_, ?_, ?_⟩
  · rw [split, append_assoc]
    rfl
  · exact (indexed.cons fresh).perm (perm_append_singleton _ _).symm
  intro x
  have here := covered x
  have moved : em.freeList.cover x = freeList.cover x + e.range.span.hit x := covers x
  rw [map_append, cover_append, map_cons, cover_cons, map_nil, cover_nil]
  dsimp only
  omega

lemma loadVersion4or5_meets (ok : ImageOk image) :
    Meets (fun em => Good em ∧ em.tree.entries = []) (loadVersion4or5 image)
      (fun _ => Good) Good := by
  have loaded := ok.loadedTree_perm
  have listed : ∀ x ∈ (loadedTree image).entries, ∃ e ∈ image, (e.range.start, e) = x :=
    fun x member => mem_map.mp (loaded.mem_iff.mp member)
  have low : ∀ x, treeCover (loadedTree image) x ≤ if x < 2 ^ 36 then 1 else 0 := by
    intro x
    have same : treeCover (loadedTree image) x = cover (image.map (·.range.span)) x := by
      rw [treeCover, cover_perm (loaded.map _), map_map]
      rfl
    rw [same]
    exact cover_le_of_apart ok.inside ok.apart x
  have keyed : ∀ x ∈ (loadedTree image).entries, x.1 = x.2.range.start := by
    intro x member
    obtain ⟨e, _, rfl⟩ := listed x member
    rfl
  have ofImage : ∀ {p : EMEntry → Prop}, (∀ e ∈ image, p e) →
      ∀ x ∈ (loadedTree image).entries, p x.2 := by
    intro p all x member
    obtain ⟨e, inImage, rfl⟩ := listed x member
    exact all e inImage
  unfold loadVersion4or5
  split
  · exact Meets.throw fun _ h => h.1
  have start : Meets (fun em => Good em ∧ em.tree.entries = [])
      (modify fun em => { em with
        tree := loadedTree image
        freeList := FreeList.cleared em.freeList
        treeCurrentSize := image.length } : Op PUnit)
      (fun _ => Loading (loadedTree image) (loadedTree image).entries) Good := by
    refine Meets.modify fun em before => ⟨rfl, FreeList.whole_sound _, [], rfl, ?_, ?_⟩
    · have indexed := before.1.indexed
      rwa [before.2] at indexed
    · intro x
      rw [FreeList.cleared, FreeList.whole_cover]
      rfl
  refine Meets.bind start fun _ => ?_
  refine (Meets.forM fun x rest => ?_).weaken (fun _ h => h)
    (fun _ em h => ?_) fun _ h => h
  · refine Meets.get_bind fun em loading => ?_
    obtain ⟨freeList, records, reserved, next⟩ := loading.step low (ofImage ok.sized)
      (ofImage ok.eightBits) (ofImage ok.aligned)
    rw [reserved]
    exact Meets.run_bind rfl (Meets.set next)
  obtain ⟨done, split, indexed, covered⟩ := h.divided
  rw [append_nil] at split
  rw [← split] at indexed covered
  rw [← h.sameTree] at indexed covered keyed
  refine ⟨⟨keyed, ?_, ?_, fun _ member => absurd member not_mem_nil,
    fun _ member => absurd member not_mem_nil, h.free, fun x => ?_⟩, indexed⟩
  · rw [h.sameTree]
    exact ofImage ok.sized
  · rw [h.sameTree]
    exact ofImage ok.aligned
  have here := covered x
  rw [map_nil, cover_nil]
  unfold treeCover
  omega

end ExtentMap
