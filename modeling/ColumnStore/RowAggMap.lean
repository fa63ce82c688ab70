import ColumnStore.RowAggCollisions
import ColumnStore.RowAggTable
import ColumnStore.Runs
import Mathlib.Data.Finset.Card

/-!
# The rows of an aggregation

A storage is sound if its generations are tables that hold exactly the rows handed out, and the
rows have pairwise unequal keys. A call keeps this and finds the row of its key in two cases only:
the growth at its beginning must leave room in the info bytes, which the call does not check
again, and where an older generation is searched, the slot that is read must be the one that is
probed, although the code reads the slot where the search in the current generation ended.
-/

namespace RowAggStorage

open RobinHood Runs List Bool Prod
open Option (ite_none_right_eq_some some)

variable {keys : Keys}

variable {d : Data}

namespace Data

/-- The probe for a slot: the search for a hash that accepts this slot only. -/
def probe (d : Data) (hash : BitVec 64) (slot : Nat) : Except Fault (Nat ⊕ Nat × Nat) := do
  let (info, idx) := d.rowHashToIdx hash
  let (info, idx) ← nextWhileLess d.fInfoInc info idx (d.fInfo.drop idx)
  whileEqual d.fInfoInc (fun j => .ok (if j = slot then some j else none)) info idx
    (d.fInfo.drop idx)

/-- Every occupied slot is found by the probe from its own hash. -/
def Findable (d : Data) : Prop :=
  ∀ i < d.size, d.fInfo.getD i 0 ≠ 0 →
    ∃ pos, d.fHashes[i]? = some pos ∧ d.probe pos.hash i = .ok (.inl i)

lemma Valid.findable (valid : d.Valid) : d.Findable := by
  intro i within occupied
  have inHashes : i < d.fHashes.length := by
    rw [valid.hashLength, ← valid.size_eq]
    exact within
  have isPos := getElem?_eq_getElem inHashes
  have found : d.slots i = some d.fHashes[i] := by
    rw [slots, if_pos ⟨within, occupied⟩, isPos]
  refine ⟨_, isPos, ?_⟩
  obtain ⟨info, idx, less, ⟨j, pos, row, -, -, hit, done⟩ | ⟨p, -, -, -, missed⟩⟩ :=
    search_spec valid d.fHashes[i].hash (fun j _ _ _ => ⟨if j = i then some j else none, rfl⟩)
  · simp only [probe, less, bind, Except.bind, done]
    obtain ⟨same, isRow⟩ := ite_none_right_eq_some.mp (Except.ok.inj hit)
    rw [← some.inj isRow, same]
  · have miss := missed i _ found rfl
    rw [if_pos rfl] at miss
    cases miss

end Data

variable {row : keys.Key}

namespace Storage

/-- All generations, the current one last. -/
def generations (s : Storage keys) : List Data := s.fGens ++ [s.fCurData]

structure Sound (s : Storage keys) : Prop where
  fresh : s.fInitialized = false → s.fGens = [] ∧ s.fCurData = .new [] ∧ s.rows = []
  current : s.fInitialized = true → s.fCurData.Valid
  older : ∀ genData ∈ s.fGens, genData.Valid
  single : s.fEnabledDiskAggregation = true → s.fGens = []
  stored : ∀ d ∈ s.generations, ∀ pos, d.Has pos →
    ∃ key, s.rows[pos.idx]? = some key ∧ keys.hash key = pos.hash
  complete : ∀ (idx : Nat) key, s.rows[idx]? = some key →
    ∃ d ∈ s.generations, d.Has ⟨keys.hash key, idx⟩
  distinct : ∀ (i j : Nat) k l, s.rows[i]? = some k → s.rows[j]? = some l →
    keys.equals k l = true → i = j

variable {s t : Storage keys} {memory : Memory}

lemma forall_generations {P : Data → Prop} :
    (∀ d ∈ s.generations, P d) ↔ (∀ d ∈ s.fGens, P d) ∧ P s.fCurData := by
  simp [generations, or_imp, forall_and]

lemma exists_generations {P : Data → Prop} :
    (∃ d ∈ s.generations, P d) ↔ (∃ d ∈ s.fGens, P d) ∨ P s.fCurData := by
  simp [generations]

lemma sound_new (disk : Bool) : (Storage.new disk : Storage keys).Sound := by
  refine ⟨fun _ => ⟨rfl, rfl, rfl⟩, nofun, nofun, fun _ => rfl, ?_, nofun, nofun⟩
  intro d member pos has
  obtain ⟨i, found⟩ := has
  rw [mem_singleton.mp member] at found
  have occupied := (ite_none_right_eq_some.mp found).1.2
  exact absurd rfl occupied

lemma Sound.replace (sound : s.Sound) (valid : d.Valid)
    (same : ∀ pos, d.Has pos ↔ s.fCurData.Has pos) :
    Sound { s with fInitialized := true, fCurData := d } := by
  obtain ⟨older, current⟩ := forall_generations.mp sound.stored
  refine ⟨nofun, fun _ => valid, sound.older, sound.single, forall_generations.mpr
    ⟨older, fun pos has => current pos ((same pos).mp has)⟩, fun idx key row => ?_, sound.distinct⟩
  simpa only [exists_generations, same] using sound.complete idx key row

lemma maxRows_eq (s : Storage keys) : s.getMaxRows = 256 ∨ s.getMaxRows = 8192 := by
  unfold getMaxRows
  split
  · exact .inr rfl
  · exact .inl rfl

/-- An outcome is an error of the storage, or a sound storage with the same rows. -/
def Grows (s : Storage keys) (outcome : Except Fault (Storage keys)) : Prop :=
  (∃ fault, outcome = .error fault ∧ fault ≠ .undefined) ∨
    ∃ t, outcome = .ok t ∧ t.Sound ∧ t.rows = s.rows ∧ t.fInitialized = true ∧
      t.fEnabledDiskAggregation = s.fEnabledDiskAggregation

lemma startNewGeneration_grows (sound : s.Sound) (ready : s.fInitialized)
    (inMemory : s.fEnabledDiskAggregation = false) (granted : Bool) :
    Grows s (s.startNewGeneration granted) := by
  unfold startNewGeneration
  cases granted with
  | false => exact .inl ⟨_, rfl, by decide⟩
  | true =>
    rcases Data.reserve_spec s.maxRows_eq (replicate 0xFF ⟨0, 0⟩) true with
      failed | ⟨d, done, valid, -, empty⟩
    · rw [failed]
      exact .inl ⟨_, rfl, by decide⟩
    rw [done]
    refine .inr ⟨_, rfl, ⟨fun isFresh => ?_, fun _ => valid,
      forall_generations.mpr ⟨sound.older, sound.current ready⟩, fun disk => ?_,
      forall_generations.mpr ⟨sound.stored, ?_⟩, fun idx key row =>
        exists_generations.mpr (.inl (sound.complete idx key row)),
      sound.distinct⟩, rfl, ready, rfl⟩
    · exact absurd (ready.symm.trans isFresh) (by decide)
    · exact absurd (inMemory.symm.trans disk) (by decide)
    · rintro pos ⟨i, found⟩
      rw [empty i] at found
      cases found

lemma increaseSize_grows (sound : s.Sound) (ready : s.fInitialized) (memory : Memory) :
    Grows s (s.increaseSize memory) := by
  have valid := sound.current ready
  have large := valid.large
  have isReady : ∀ d : Data, { s with fCurData := d } =
      { s with fInitialized := true, fCurData := d } := fun d => by rw [← ready]
  -- the outcome of a rehash, which keeps the entries
  have rehashed : ∀ (d : Data) (elems : Nat), d.Readable → d.fMask = s.fCurData.fMask →
      d.slots = s.fCurData.slots → 512 ≤ elems →
      Grows s (do return { s with fCurData := ← d.rehashPowerOfTwo elems memory.granted }) := by
    intro d elems readable mask slots large'
    rcases Data.rehashPowerOfTwo_spec readable (mask ▸ large) large' memory.granted with
      ⟨fault, failed, own⟩ | ⟨d', done, valid', same⟩
    · rw [failed]
      exact .inl ⟨fault, rfl, own⟩
    rw [done]
    refine .inr ⟨_, rfl, ?_, rfl, ready, rfl⟩
    rw [isReady]
    refine sound.replace valid' fun pos => (same pos).trans ?_
    rw [Data.Has, slots, Data.Has]
  unfold increaseSize
  rw [if_neg (by omega)]
  simp only [bind, Except.bind]
  by_cases increase : s.fCurData.fSize < calcMaxSize (s.fCurData.fMask + 1) ∧
      2 < s.fCurData.fInfoInc
  · obtain ⟨d', done, valid', -, slots⟩ := Data.tryIncreaseInfo_spec valid increase.2
    rw [if_pos increase.1, done]
    refine .inr ⟨_, rfl, ?_, rfl, ready, rfl⟩
    rw [isReady]
    refine sound.replace valid' fun pos => ?_
    rw [Data.Has, slots, Data.Has]
  have failed : (if s.fCurData.fSize < calcMaxSize (s.fCurData.fMask + 1) then
      s.fCurData.tryIncreaseInfo else none) = none := by
    split
    · exact Data.tryIncreaseInfo_eq_none.mpr (by omega)
    · rfl
  rw [failed]
  simp only
  split
  · exact .inl ⟨_, rfl, by decide⟩
  split
  · split
    · obtain ⟨readable, slots⟩ := Data.readable_multiplier valid.readable
        (s.fCurData.hashMultiplier + 0xc4ceb9fe1a85ec54)
      exact rehashed _ _ readable rfl slots large
    · exact rehashed s.fCurData _ valid.readable rfl rfl (by omega)
  rename_i short
  have inMemory : s.fEnabledDiskAggregation = false :=
    (or_eq_false_iff.mp (eq_false_iff.mpr short)).1
  split
  · exact startNewGeneration_grows sound ready inMemory memory.granted
  · exact .inl ⟨_, rfl, by decide⟩

lemma grow_grows (sound : s.Sound) (memory : Memory) : Grows s (s.grow memory) := by
  unfold grow
  cases ready : s.fInitialized with
  | false =>
    obtain ⟨-, current, -⟩ := sound.fresh ready
    rw [current]
    rcases Data.reserve_spec s.maxRows_eq [] memory.granted with
      failed | ⟨d, done, valid, -, empty⟩
    · rw [failed]
      exact .inl ⟨_, rfl, by decide⟩
    rw [done]
    refine .inr ⟨_, rfl, sound.replace valid fun pos => ?_, rfl, rfl, rfl⟩
    constructor
    · rintro ⟨i, found⟩
      rw [empty i] at found
      cases found
    · rintro ⟨i, found⟩
      rw [current] at found
      exact absurd rfl (ite_none_right_eq_some.mp found).1.2
  | true =>
    simp only [Bool.not_true, Bool.false_eq_true, if_false]
    split
    · exact increaseSize_grows sound ready memory
    · exact .inr ⟨s, rfl, sound, rfl, ready, rfl⟩

/-- The row has a key equal to the one asked for. -/
def HasRow (s : Storage keys) (row : keys.Key) (idx : Nat) : Prop :=
  ∃ key, s.rows[idx]? = some key ∧ keys.equals row key = true

lemma check_found {hashes : List RowPosHash} {j idx : Nat}
    (found : s.check row hashes j = .ok (some idx)) : s.HasRow row idx := by
  simp only [check, access, bind, Except.bind, pure, Except.pure] at found
  grind [HasRow]

lemma check_spec (sound : s.Sound) {d : Data} (member : d ∈ s.generations) {j : Nat}
    {pos : RowPosHash} (found : d.slots j = some pos) (row : keys.Key) :
    ∃ result, s.check row d.fHashes j = .ok result ∧ (result = none → ¬s.HasRow row pos.idx) := by
  obtain ⟨key, stored, sameHash⟩ := sound.stored d member pos ⟨j, found⟩
  unfold check
  rw [Data.slots_eq found]
  simp only [access, bind, Except.bind]
  by_cases hashes : pos.hash = keys.hash row
  · rw [if_pos hashes, stored]
    refine ⟨_, rfl, ?_⟩
    rintro missed ⟨other, isOther, same⟩
    cases stored.symm.trans isOther
    rw [if_pos same] at missed
    cases missed
  rw [if_neg hashes]
  refine ⟨none, rfl, ?_⟩
  rintro - ⟨other, isOther, same⟩
  cases stored.symm.trans isOther
  exact hashes (sameHash.symm.trans (keys.hash_eq row key same).symm)

/-- No entry of a generation has an equal key. -/
def Misses (s : Storage keys) (row : keys.Key) (d : Data) : Prop :=
  ∀ pos, d.Has pos → ¬s.HasRow row pos.idx

section

variable (sound : s.Sound)
include sound

/-- Entries with other ranks have other hashes, and so other keys. -/
lemma misses_of_rank (member : d ∈ s.generations)
    (missed : ∀ j pos, d.slots j = some pos → d.rank pos = d.rankOf (keys.hash row) →
      ¬s.HasRow row pos.idx) :
    s.Misses row d := by
  rintro pos ⟨j, found⟩ ⟨key, isKey, equal⟩
  obtain ⟨stored, isStored, sameHash⟩ := sound.stored d member pos ⟨j, found⟩
  obtain rfl : stored = key := some.inj (isStored.symm.trans isKey)
  refine missed j pos found ?_ ⟨stored, isKey, equal⟩
  rw [Data.rank, ← sameHash, ← keys.hash_eq row stored equal]

/-- The search in a generation, where the comparison in a slot of the key's rank is with the entry
in this slot. -/
lemma search_generation (valid : d.Valid) (member : d ∈ s.generations) (row : keys.Key)
    (check : Nat → Except Fault (Option Nat))
    (probed : ∀ j pos, d.slots j = some pos → d.rank pos = d.rankOf (keys.hash row) →
      check j = s.check row d.fHashes j) :
    ∃ info idx, nextWhileLess d.fInfoInc (d.rowHashToIdx (keys.hash row)).1
        (d.rowHashToIdx (keys.hash row)).2
        (d.fInfo.drop (d.rowHashToIdx (keys.hash row)).2) = .ok (info, idx) ∧
      ((∃ found, s.HasRow row found ∧
          whileEqual d.fInfoInc check info idx (d.fInfo.drop idx) = .ok (.inl found)) ∨
        ∃ p, p ≤ d.fMask + 128 ∧
          Stop d.fInfoInc d.rank d.slots (d.rankOf (keys.hash row)) p ∧
          whileEqual d.fInfoInc check info idx (d.fInfo.drop idx) =
            .ok (.inr (infoAt d.fInfoInc (d.rankOf (keys.hash row)) p, p)) ∧
          s.Misses row d) := by
  have safe : ∀ j pos, d.slots j = some pos → d.rank pos = d.rankOf (keys.hash row) →
      ∃ found, check j = .ok found := by
    intro j pos found same
    obtain ⟨result, done, -⟩ := check_spec sound member found row
    exact ⟨result, (probed j pos found same).trans done⟩
  obtain ⟨info, idx, less, ⟨j, pos, r, found, same, hit, done⟩ | ⟨p, near, stop, done, missed⟩⟩ :=
    Data.search_spec valid (keys.hash row) safe
  · rw [probed j pos found same] at hit
    exact ⟨info, idx, less, .inl ⟨r, check_found hit, done⟩⟩
  refine ⟨info, idx, less, .inr ⟨p, near, stop, done, ?_⟩⟩
  refine misses_of_rank sound member fun j pos found same => ?_
  obtain ⟨result, done, misses⟩ := check_spec sound member found row
  have miss := missed j pos found same
  rw [probed j pos found same, done] at miss
  exact misses (Except.ok.inj miss)

/-- Every slot of an older generation with the rank of the key is slot `idx`. -/
def ReadsProbed (row : keys.Key) (idx : Nat) (genData : Data) : Prop :=
  ∀ j pos, genData.slots j = some pos → genData.rank pos = genData.rankOf (keys.hash row) → j = idx

lemma searchOlder_spec (row : keys.Key) (idx : Nat) (gens : List Data)
    (member : ∀ genData ∈ gens, genData ∈ s.fGens)
    (probed : ∀ genData ∈ gens, ReadsProbed row idx genData) :
    (∃ found, s.searchOlder row idx gens = .ok (some found) ∧ s.HasRow row found) ∨
      (s.searchOlder row idx gens = .ok none ∧ ∀ genData ∈ gens, s.Misses row genData) := by
  induction gens with
  | nil => exact .inr ⟨rfl, nofun⟩
  | cons genData rest later =>
    have inGens := member genData mem_cons_self
    obtain ⟨info, gidx, less, ⟨found, has, done⟩ | ⟨p, -, -, done, misses⟩⟩ :=
      search_generation sound (sound.older genData inGens) (mem_append_left _ inGens) row
        (fun _ => s.check row genData.fHashes idx)
        (fun j pos here same => by rw [probed genData mem_cons_self j pos here same])
    · refine .inl ⟨found, ?_, has⟩
      simp only [searchOlder, less, bind, Except.bind, done]
    have unfolded : s.searchOlder row idx (genData :: rest) = s.searchOlder row idx rest := by
      simp only [searchOlder, less, bind, Except.bind, done]
    rw [unfolded]
    rcases later (fun g inRest => member g (mem_cons_of_mem _ inRest))
      (fun g inRest => probed g (mem_cons_of_mem _ inRest)) with hit | ⟨none, missed⟩
    · exact .inl hit
    refine .inr ⟨none, fun g inGens => ?_⟩
    rcases mem_cons.mp inGens with rfl | inRest
    · exact misses
    · exact missed g inRest

lemma noRow_of_misses (misses : ∀ d ∈ s.generations, s.Misses row d) (idx : Nat) :
    ¬s.HasRow row idx := by
  rintro ⟨key, isKey, equal⟩
  obtain ⟨d, member, has⟩ := sound.complete idx key isKey
  exact misses d member _ has ⟨key, isKey, equal⟩

/-- A row with a new key is added to the current generation. -/
lemma sound_insert (noRow : ∀ idx, ¬s.HasRow row idx) (valid : d.Valid)
    (entries : ∀ pos, d.Has pos ↔ pos = ⟨keys.hash row, s.rows.length⟩ ∨ s.fCurData.Has pos)
    (ready : s.fInitialized) : Sound { s with fCurData := d, rows := s.rows ++ [row] } := by
  have kept : ∀ (idx : Nat) key, s.rows[idx]? = some key → (s.rows ++ [row])[idx]? = some key := by
    intro idx key isKey
    rw [List.getElem?_append_left (List.getElem?_eq_some_iff.mp isKey).1, isKey]
  have cases_row : ∀ (idx : Nat) key, (s.rows ++ [row])[idx]? = some key →
      s.rows[idx]? = some key ∨ idx = s.rows.length ∧ key = row := by
    intro idx key isKey
    by_cases before : idx < s.rows.length
    · rw [getElem?_append_left before] at isKey
      exact .inl isKey
    have within := (List.getElem?_eq_some_iff.mp isKey).1
    rw [length_append, length_singleton] at within
    obtain rfl : idx = s.rows.length := by omega
    rw [getElem?_concat_length] at isKey
    exact .inr ⟨rfl, (some.inj isKey).symm⟩
  obtain ⟨older, current⟩ := forall_generations.mp sound.stored
  refine ⟨fun isFresh => absurd (ready.symm.trans isFresh) (by decide), fun _ => valid, sound.older,
    sound.single,
    forall_generations.mpr ⟨fun genData member pos has => ?_, fun pos has => ?_⟩, ?_, ?_⟩
  · obtain ⟨key, isKey, sameHash⟩ := older genData member pos has
    exact ⟨key, kept _ key isKey, sameHash⟩
  · rcases (entries pos).mp has with rfl | has
    · exact ⟨row, getElem?_concat_length .., rfl⟩
    · obtain ⟨key, isKey, sameHash⟩ := current pos has
      exact ⟨key, kept _ key isKey, sameHash⟩
  · intro idx key isKey
    rw [exists_generations, entries]
    rcases cases_row idx key isKey with isOld | ⟨rfl, rfl⟩
    · exact (exists_generations.mp (sound.complete idx key isOld)).imp_right .inr
    · exact .inr (.inl rfl)
  intro i j k l first second equal
  rcases cases_row i k first with old | ⟨rfl, rfl⟩
  · rcases cases_row j l second with old' | ⟨rfl, rfl⟩
    · exact sound.distinct i j k l old old' equal
    · exact absurd ⟨k, old, keys.symm k l equal⟩ (noRow i)
  · rcases cases_row j l second with old' | ⟨rfl, rfl⟩
    · exact absurd ⟨l, old', equal⟩ (noRow j)
    · rfl

end

/-- What a call may do: fail with an error of the storage, return the row there is for the key,
or return a new row if there is none. -/
def Answers (s : Storage keys) (row : keys.Key)
    (outcome : Except Fault (Storage keys × Bool × Nat)) : Prop :=
  (∃ fault, outcome = .error fault ∧ fault ≠ .undefined) ∨
    (∃ t idx, outcome = .ok (t, false, idx) ∧ t.Sound ∧ t.rows = s.rows ∧ s.HasRow row idx) ∨
    ∃ t, outcome = .ok (t, true, s.rows.length) ∧ t.Sound ∧ t.rows = s.rows ++ [row] ∧
      ∀ idx, ¬s.HasRow row idx

/-- The slot where a search for a hash ends, found with the loop of `insertSwap`. -/
def searchEnd (d : Data) (hash : BitVec 64) : Option Nat :=
  match nextWhileLessOrEqual d.fInfoInc (d.rowHashToIdx hash).1 (d.rowHashToIdx hash).2
      (d.fInfo.drop (d.rowHashToIdx hash).2) with
  | .ok (_, idx) => some idx
  | .error _ => none

/-- The slot `j` with info byte `b` has the info that a search for the hash expects in it. -/
def isProbed (genData : Data) (hash : BitVec 64) (b j : Nat) : Bool :=
  let (info, idx) := genData.rowHashToIdx hash
  decide (idx ≤ j) && b == info + (j - idx) * genData.fInfoInc

/-- The growth at the beginning of a call leaves room in the info bytes. -/
def growthLeavesRoom (s : Storage keys) (memory : Memory) : Bool :=
  match s.grow memory with
  | .error _ => true
  | .ok t => t.fCurData.fMaxSize != 0

/-- A slot that a call probes in an older generation is the slot it reads there: the one where
the search in the current generation ends. -/
def readsProbedSlots (s : Storage keys) (row : keys.Key) (memory : Memory) : Bool :=
  match s.grow memory with
  | .error _ => true
  | .ok t =>
    t.fEnabledDiskAggregation || t.fGens.all fun genData =>
      genData.fInfo.zipIdx.all fun (b, j) =>
        !isProbed genData (keys.hash row) b j ||
          some j == searchEnd t.fCurData (keys.hash row)

lemma searchEnd_eq (valid : d.Valid) {hash : BitVec 64} {p : Nat} (near : p ≤ d.fMask + 128)
    (stop : Stop d.fInfoInc d.rank d.slots (d.rankOf hash) p) : searchEnd d hash = some p := by
  obtain ⟨start, info⟩ := Data.start_eq valid hash
  have size := valid.size_eq
  have done := Data.nextWhileLessOrEqual_spec valid stop (by omega) start.ge (start ▸ stop.start)
  rw [searchEnd, info, done]

lemma isProbed_of_rank (valid : d.Valid) {hash : BitVec 64} {j : Nat} {pos : RowPosHash}
    (found : d.slots j = some pos) (same : d.rank pos = d.rankOf hash) :
    ∃ b, d.fInfo[j]? = some b ∧ isProbed d hash b j := by
  obtain ⟨start, info⟩ := Data.start_eq valid hash
  have home := valid.layout.reached found
  have value := valid.info j pos found
  rw [same] at home value
  refine ⟨_, value, ?_⟩
  have steps := infoAt_steps valid.positive home
  rw [← start] at home steps
  rw [isProbed, and_eq_true, decide_eq_true_eq, beq_iff_eq, steps, ← info]
  exact ⟨home, rfl⟩

section

variable (sound : s.Sound)
include sound

lemma insertRow_spec (ready : s.fInitialized) (noRow : ∀ idx, ¬s.HasRow row idx)
    (room : s.fCurData.fMaxSize ≠ 0) {p : Nat} (near : p ≤ s.fCurData.fMask + 128)
    (stop : Stop s.fCurData.fInfoInc s.fCurData.rank s.fCurData.slots
      (s.fCurData.rankOf (keys.hash row)) p)
    (rowGranted : Bool) :
    s.Answers row (s.insertRow row p
      (infoAt s.fCurData.fInfoInc (s.fCurData.rankOf (keys.hash row)) p) rowGranted) := by
  have valid := sound.current ready
  have stop' : Stop s.fCurData.fInfoInc s.fCurData.rank s.fCurData.slots
      (s.fCurData.rank ⟨keys.hash row, s.rows.length⟩) p := stop
  obtain ⟨d, done, valid', entries⟩ := Data.place_spec valid stop' near room
  simp only [Data.rank] at done
  unfold insertRow
  rw [done]
  cases rowGranted with
  | false => exact .inl ⟨_, rfl, by decide⟩
  | true => exact .inr (.inr ⟨_, rfl, sound_insert sound noRow valid' entries ready, rfl, noRow⟩)

lemma search_answers (ready : s.fInitialized) (row : keys.Key) (room : s.fCurData.fMaxSize ≠ 0)
    (probed : s.fEnabledDiskAggregation = false → ∀ genData ∈ s.fGens, ∀ p,
      searchEnd s.fCurData (keys.hash row) = some p → ReadsProbed row p genData)
    (memory : Memory) :
    s.Answers row (do
      let d := s.fCurData
      let (info, idx) := d.rowHashToIdx (keys.hash row)
      let (info, idx) ← nextWhileLess d.fInfoInc info idx (d.fInfo.drop idx)
      match ← whileEqual d.fInfoInc (s.check row d.fHashes) info idx (d.fInfo.drop idx) with
      | .inl found => return (s, false, found)
      | .inr (info, idx) =>
        match ← if s.fEnabledDiskAggregation then .ok none
          else s.searchOlder row idx s.fGens.reverse with
        | some found => return (s, false, found)
        | none => s.insertRow row idx info memory.rowGranted) := by
  have valid := sound.current ready
  have current : s.fCurData ∈ s.generations := mem_append_right _ mem_cons_self
  obtain ⟨info, idx, less, ⟨found, has, done⟩ | ⟨p, near, stop, done, misses⟩⟩ :=
    search_generation sound valid current row (s.check row s.fCurData.fHashes)
      (fun _ _ _ _ => rfl)
  · simp only [less, bind, Except.bind, done]
    exact .inr (.inl ⟨s, found, rfl, sound, rfl, has⟩)
  simp only [less, bind, Except.bind, done]
  have ending := searchEnd_eq valid near stop
  have inserted : (∀ genData ∈ s.fGens, s.Misses row genData) → s.Answers row (s.insertRow row p
      (infoAt s.fCurData.fInfoInc (s.fCurData.rankOf (keys.hash row)) p) memory.rowGranted) := by
    intro missed
    exact insertRow_spec sound ready
      (noRow_of_misses sound (forall_generations.mpr ⟨missed, misses⟩)) room near stop _
  cases disk : s.fEnabledDiskAggregation with
  | true =>
    exact inserted (by rw [sound.single disk]; exact nofun)
  | false =>
    rcases searchOlder_spec sound row p s.fGens.reverse
      (fun _ member => mem_reverse.mp member)
      (fun g member => probed disk g (mem_reverse.mp member) p ending) with
      ⟨found, hit, has⟩ | ⟨none, missed⟩
    · rw [hit]
      exact .inr (.inl ⟨s, found, rfl, sound, rfl, has⟩)
    · rw [none]
      exact inserted fun g member => missed g (mem_reverse.mpr member)

lemma getTargetRow_answers (room : s.growthLeavesRoom memory)
    (probed : s.readsProbedSlots row memory) : s.Answers row (s.getTargetRow row memory) := by
  rw [getTargetRow]
  rcases grow_grows sound memory with
    ⟨fault, failed, own⟩ | ⟨t, done, sound', rows, ready, -⟩
  · rw [failed]
    exact .inl ⟨fault, rfl, own⟩
  rw [growthLeavesRoom, done] at room
  simp only [readsProbedSlots, done] at probed
  have room' : t.fCurData.fMaxSize ≠ 0 := bne_iff_ne.mp room
  rw [done]
  have answers := search_answers sound' ready row room' ?_ memory
  · rw [Answers] at answers
    unfold HasRow at answers
    rw [rows] at answers
    exact answers
  intro disk genData member p ending j pos found same
  rw [disk] at probed
  obtain ⟨b, value, isProbed⟩ := isProbed_of_rank (sound'.older genData member) found same
  have only := all_eq_true.mp (all_eq_true.mp probed genData member) (b, j)
    (mem_zipIdx_iff_getElem?.mpr value)
  rw [isProbed, Bool.not_true, Bool.false_or, ending, beq_iff_eq] at only
  exact some.inj only

end

end Storage

/-- A storage with the calls so far: the key asked for, whether the row was new, and its index. -/
structure Session (keys : Keys) where
  storage : Storage keys
  answers : List (keys.Key × Bool × Nat)

namespace Session

/-- The session before the first call. -/
def new (fEnabledDiskAggregation : Bool) : Session keys := ⟨.new fEnabledDiskAggregation, []⟩

/-- A call that returns. -/
def call (s : Session keys) (request : keys.Key × Memory) : Option (Session keys) :=
  match s.storage.getTargetRow request.1 request.2 with
  | .error _ => none
  | .ok (storage, isNew, idx) => some ⟨storage, s.answers ++ [(request.1, isNew, idx)]⟩

structure Consistent (s : Session keys) : Prop where
  sound : s.storage.Sound
  answered : ∀ a ∈ s.answers, s.storage.HasRow a.1 a.2.2
  asked : ∀ (idx : Nat) key, s.storage.rows[idx]? = some key → ∃ a ∈ s.answers, a.1 = key

variable {s t : Session keys} {row : keys.Key} {memory : Memory}

lemma consistent_new (disk : Bool) : (new disk : Session keys).Consistent :=
  ⟨Storage.sound_new disk, nofun, nofun⟩

/-- A row has one key, up to equality. -/
lemma equals_of_row {storage : Storage keys} {other : keys.Key} {i : Nat}
    (first : storage.HasRow row i) (second : storage.HasRow other i) : keys.equals row other := by
  obtain ⟨k, isK, equalK⟩ := first
  obtain ⟨l, isL, equalL⟩ := second
  obtain rfl : k = l := some.inj (isK.symm.trans isL)
  exact keys.trans row k other equalK (keys.symm other k equalL)

section

variable (consistent : s.Consistent)
include consistent

lemma Consistent.row_unique {other : keys.Key} {i j : Nat}
    (first : s.storage.HasRow row i) (second : s.storage.HasRow other j)
    (equal : keys.equals row other) : i = j := by
  obtain ⟨k, isK, equalK⟩ := first
  obtain ⟨l, isL, equalL⟩ := second
  refine consistent.sound.distinct i j k l isK isL ?_
  exact keys.trans k row l (keys.symm row k equalK) (keys.trans row other l equal equalL)

section

variable (answers : s.storage.Answers row (s.storage.getTargetRow row memory))
include answers

lemma Consistent.call
    (taken : s.call (row, memory) = some t) : t.Consistent := by
  rw [Session.call] at taken
  rcases answers with ⟨fault, failed, -⟩ | ⟨u, idx, done, sound, rows, has⟩ |
    ⟨u, done, sound, rows, -⟩
  · rw [failed] at taken
    cases taken
  · rw [done] at taken
    cases taken
    refine ⟨sound, fun a member => ?_, fun i key isKey => ?_⟩
    · rw [Storage.HasRow, rows]
      rcases mem_append.mp member with old | new
      · exact consistent.answered a old
      · rw [mem_singleton.mp new]
        exact has
    · rw [rows] at isKey
      obtain ⟨a, member, same⟩ := consistent.asked i key isKey
      exact ⟨a, mem_append_left _ member, same⟩
  rw [done] at taken
  cases taken
  refine ⟨sound, fun a member => ?_, fun i key isKey => ?_⟩
  · rw [Storage.HasRow, rows]
    rcases mem_append.mp member with old | new
    · obtain ⟨key, isKey, equal⟩ := consistent.answered a old
      refine ⟨key, ?_, equal⟩
      rw [List.getElem?_append_left (List.getElem?_eq_some_iff.mp isKey).1, isKey]
    · rw [mem_singleton.mp new]
      exact ⟨row, getElem?_concat_length .., keys.refl row⟩
  rw [rows] at isKey
  rcases mem_append.mp (mem_of_getElem? isKey) with old | new
  · obtain ⟨j, isKey'⟩ := mem_iff_getElem?.mp old
    obtain ⟨a, member, same⟩ := consistent.asked j key isKey'
    exact ⟨a, mem_append_left _ member, same⟩
  · exact ⟨_, mem_append_right _ mem_cons_self, (mem_singleton.mp new).symm⟩

/-- What a call returns, by the calls before it. -/
def AnswersByKey (s : Session keys) (row : keys.Key) (memory : Memory) : Prop :=
  (∃ fault, s.storage.getTargetRow row memory = .error fault ∧ fault ≠ .undefined) ∨
    ∃ storage isNew idx, s.storage.getTargetRow row memory = .ok (storage, isNew, idx) ∧
      (isNew = true ↔ ∀ a ∈ s.answers, keys.equals row a.1 = false) ∧
      ∀ a ∈ s.answers, idx = a.2.2 ↔ keys.equals row a.1 = true

lemma Consistent.answersByKey : s.AnswersByKey row memory := by
  rcases answers with failed | ⟨u, idx, done, -, -, has⟩ | ⟨u, done, -, -, noRow⟩
  · exact .inl failed
  · refine .inr ⟨u, false, idx, done, ⟨nofun, fun other => ?_⟩, fun a member => ⟨?_, ?_⟩⟩
    · obtain ⟨key, isKey, equal⟩ := has
      obtain ⟨a, member, rfl⟩ := consistent.asked idx key isKey
      rw [other a member] at equal
      cases equal
    · rintro rfl
      exact equals_of_row has (consistent.answered a member)
    · exact consistent.row_unique has (consistent.answered a member)
  have unequal : ∀ a ∈ s.answers, ¬keys.equals row a.1 := by
    intro a member equal
    obtain ⟨key, isKey, equal'⟩ := consistent.answered a member
    exact noRow a.2.2 ⟨key, isKey, keys.trans row a.1 key equal equal'⟩
  refine .inr ⟨u, true, _, done, ⟨fun _ a member => ?_, fun _ => rfl⟩, fun a member => ⟨?_, ?_⟩⟩
  · exact eq_false_iff.mpr (unequal a member)
  · intro same
    obtain ⟨key, isKey, -⟩ := consistent.answered a member
    exact absurd (List.getElem?_eq_some_iff.mp isKey).1 (by omega)
  · exact fun equal => absurd equal (unequal a member)

end

/-- Calls with one generation whose growth leaves room in the info bytes. -/
def LeavesRoom (s : Session keys) (request : keys.Key × Memory) : Prop :=
  s.storage.oneGeneration request.2 = true ∧ s.storage.growthLeavesRoom request.2 = true
  deriving Decidable

lemma LeavesRoom.answers (leaves : s.LeavesRoom (row, memory)) :
    s.storage.Answers row (s.storage.getTargetRow row memory) := by
  refine Storage.getTargetRow_answers consistent.sound leaves.2 ?_
  have single := leaves.1
  rw [Storage.oneGeneration] at single
  rw [Storage.readsProbedSlots]
  split at single
  · rename_i failed
    simp only [failed]
  · rename_i grown done
    simp only [done]
    rw [isEmpty_iff.mp single, all_nil, Bool.or_true]

lemma findable_of_consistent : s.storage.fCurData.Findable := by
  cases ready : s.storage.fInitialized with
  | true => exact (consistent.sound.current ready).findable
  | false =>
    rw [(consistent.sound.fresh ready).2.1]
    exact fun i _ occupied => absurd rfl occupied

end

lemma consistent_of_leavesRoom {disk : Bool}
    (reached : Reaches Session.call LeavesRoom (new disk : Session keys) s) : s.Consistent := by
  refine Reaches.invariant (consistent_new disk) ?_ reached
  intro s request t consistent leaves taken
  exact consistent.call (leaves.answers consistent) taken

/-- A storage with one generation is a map from keys to rows. -/
theorem getTargetRow_maps_keys {disk : Bool}
    (reached : Reaches Session.call LeavesRoom (new disk : Session keys) s) :
    s.storage.fCurData.Findable ∧
      ∀ row memory, s.LeavesRoom (row, memory) → s.AnswersByKey row memory := by
  have consistent := consistent_of_leavesRoom reached
  refine ⟨findable_of_consistent consistent, fun row memory leaves => ?_⟩
  exact consistent.answersByKey (leaves.answers consistent)

/-- Three calls for two keys with one hash. -/
theorem getTargetRow_maps_keys_collision : ∃ s : Session allSame,
    execute Session.call LeavesRoom (new false)
      [((5 : Nat), ⟨true, true, true⟩), ((6 : Nat), ⟨true, true, true⟩),
        ((5 : Nat), ⟨true, true, true⟩)] = some s ∧
      s.answers.map Prod.snd = [(true, 0), (true, 1), (false, 0)] ∧
      s.AnswersByKey (6 : Nat) ⟨true, true, true⟩ := by
  have run : (execute Session.call LeavesRoom (new false : Session allSame)
      [((5 : Nat), ⟨true, true, true⟩), ((6 : Nat), ⟨true, true, true⟩),
        ((5 : Nat), ⟨true, true, true⟩)]).map (fun s => (s.answers.map snd,
          decide (s.LeavesRoom ((6 : Nat), ⟨true, true, true⟩)))) =
      some ([(true, 0), (true, 1), (false, 0)], true) := by
    decide +kernel
  obtain ⟨s, done, result⟩ := Option.map_eq_some_iff.mp run
  obtain ⟨answers, leaves⟩ := Prod.mk.inj result
  exact ⟨s, done, answers,
    (getTargetRow_maps_keys (reaches_of_execute done)).2 _ _ (of_decide_eq_true leaves)⟩

/-- The session after calls for the keys `0, …, n - 1`. -/
def collided (n : Nat) : Session allSame where
  storage := .single (.collided 0xc4ceb9fe1a85ec53 (Data.halvings n) n n
    (replicate (767 - n) ⟨0, 0⟩)) (range n)
  answers := (range n).map fun k => ((k : Nat), true, k)

lemma reaches_collided (memory : Memory) (arrays : memory.granted)
    (granted : memory.rowGranted) {n : Nat} (few : n < 127) :
    Reaches Session.call (fun s request => s.storage.oneGeneration request.2 = true)
      (new false) (collided (n + 1)) := by
  have taken : ∀ {s : Session allSame} {n : Nat}, n < 127 → s.storage.grow memory =
      .ok (.single (.collided 0xc4ceb9fe1a85ec53 (Data.halvings (n + 1)) n n
        (replicate (767 - n) ⟨0, 0⟩)) (range n)) →
      s.answers = (range n).map (fun k => ((k : Nat), true, k)) →
      s.call ((n : Nat), memory) = some (collided (n + 1)) := by
    intro s n few grown answers
    rw [show 767 - n = 767 - (n + 1) + 1 by omega, replicate_succ] at grown
    rw [Session.call, Storage.call_collided few granted grown, answers, collided, range_succ,
      map_append]
    rfl
  induction n with
  | zero =>
    have grown := Storage.grow_new arrays
    exact .next (a := ((0 : Nat), memory)) .here (Storage.oneGeneration_of_grow grown)
      (taken few grown rfl)
  | succ n earlier =>
    have grown : (collided (n + 1)).storage.grow memory = _ := Storage.grow_collided few
    exact .next (earlier (by omega)) (Storage.oneGeneration_of_grow grown) (taken few grown rfl)

/-- The key 127 is the 128th with one hash. It is given a new row, and so it is when it is asked
for again. -/
theorem colliding_key_inserted_twice :
    ∃ s t : Session allSame, Reaches Session.call
        (fun s request => s.storage.oneGeneration request.2 = true) (new false) s ∧
      s.call ((127 : Nat), ⟨true, true, true⟩) = some t ∧
      ((127 : Nat), true, 127) ∈ t.answers ∧
      t.storage.oneGeneration ⟨true, true, true⟩ = true ∧
      (t.storage.getTargetRow (127 : Nat) ⟨true, true, true⟩).map Prod.snd = .ok (true, 128) := by
  obtain ⟨-, first⟩ := Storage.call_full 0xc4ceb9fe1a85ec53 (replicate 640 ⟨0, 0⟩) []
    (le_refl 127) (by decide)
  obtain ⟨single, second⟩ := Storage.call_full (0xc4ceb9fe1a85ec53 + 0xc4ceb9fe1a85ec54)
    (⟨0, 127⟩ :: replicate 639 ⟨0, 0⟩) [127] (by decide : 127 ≤ 128) (by decide)
  refine ⟨collided 127, ⟨_, (collided 127).answers ++ [((127 : Nat), true, 127)]⟩,
    reaches_collided ⟨true, true, true⟩ rfl rfl (by decide : 126 < 127), ?_,
    mem_append_right _ mem_cons_self, single, by rw [second]; rfl⟩
  have taken : (collided 127).storage.getTargetRow (127 : Nat) ⟨true, true, true⟩ = _ := first
  rw [Session.call, taken]
  rfl

/-- What is done with a storage without disk aggregation. -/
inductive Action (keys : Keys) where
  | getTargetRow (row : keys.Key) (memory : Memory)
  | startNewGeneration (granted : Bool)

/-- A generation may be started after the first call, up to `MAX_INMEMORY_GENS`. -/
def step (s : Session keys) : Action keys → Option (Session keys)
  | .getTargetRow row memory => s.call (row, memory)
  | .startNewGeneration granted =>
    if s.storage.fEnabledDiskAggregation = false ∧ s.storage.fInitialized = true ∧
        s.storage.fGens.length < maxInmemoryGens - 1 then
      match s.storage.startNewGeneration granted with
      | .error _ => none
      | .ok storage => some { s with storage := storage }
    else none

/-- In a call the growth leaves room and the slots read in the older generations are those
probed. -/
def ReadsProbed (s : Session keys) : Action keys → Prop
  | .getTargetRow row memory =>
    s.storage.growthLeavesRoom memory = true ∧ s.storage.readsProbedSlots row memory = true
  | .startNewGeneration _ => True

instance (s : Session keys) (a : Action keys) : Decidable (s.ReadsProbed a) :=
  match a with
  | .getTargetRow _ _ => instDecidableAnd
  | .startNewGeneration _ => .isTrue trivial

lemma Consistent.step {a : Action keys} (consistent : s.Consistent) (probed : s.ReadsProbed a)
    (taken : s.step a = some t) : t.Consistent := by
  cases a with
  | getTargetRow row memory =>
    exact consistent.call
      (Storage.getTargetRow_answers consistent.sound probed.1 probed.2) taken
  | startNewGeneration granted =>
    obtain ⟨⟨inMemory, ready, -⟩, started⟩ := ite_none_right_eq_some.mp taken
    rcases Storage.startNewGeneration_grows consistent.sound ready inMemory granted with
      ⟨fault, failed, -⟩ | ⟨u, done, sound, rows, -⟩
    · rw [failed] at started
      cases started
    rw [done] at started
    cases started
    refine ⟨sound, fun a member => ?_, fun idx key isKey => ?_⟩
    · rw [Storage.HasRow, rows]
      exact consistent.answered a member
    · exact consistent.asked idx key (rows ▸ isKey)

end Session

def Keys.setoid (keys : Keys) : Setoid keys.Key where
  r k l := keys.equals k l = true
  iseqv := ⟨keys.refl, fun {k l} => keys.symm k l, fun {k l m} => keys.trans k l m⟩

open Classical in
/-- The number of keys in a list that are not equal to one another. -/
noncomputable def Keys.distinct (keys : Keys) (asked : List keys.Key) : Nat :=
  (asked.map (Quotient.mk keys.setoid)).toFinset.card

namespace Session

variable {s : Session keys}

lemma Consistent.pairwise (consistent : s.Consistent) :
    s.storage.rows.Pairwise fun k l => keys.equals k l = false := by
  refine pairwise_iff_getElem.mpr fun i j first second before => ?_
  rw [eq_false_iff]
  intro equal
  have same := consistent.sound.distinct i j _ _ (getElem?_eq_getElem first)
    (getElem?_eq_getElem second) equal
  omega

/-- There are as many rows as different keys were asked for. -/
lemma Consistent.length_rows (consistent : s.Consistent) :
    s.storage.rows.length = keys.distinct (s.answers.map fst) := by
  classical
  have nodup : (s.storage.rows.map (Quotient.mk keys.setoid)).Nodup := by
    refine Pairwise.map _ (fun k l unequal same => ?_) consistent.pairwise
    have equal : keys.equals k l := Quotient.exact same
    rw [unequal] at equal
    cases equal
  have classes : (s.storage.rows.map (Quotient.mk keys.setoid)).toFinset =
      ((s.answers.map fst).map (Quotient.mk keys.setoid)).toFinset := by
    ext c
    simp only [mem_toFinset, mem_map]
    constructor
    · rintro ⟨key, member, rfl⟩
      obtain ⟨idx, isKey⟩ := mem_iff_getElem?.mp member
      obtain ⟨a, asked, same⟩ := consistent.asked idx key isKey
      exact ⟨key, ⟨a, asked, same⟩, rfl⟩
    · rintro ⟨_, ⟨a, asked, rfl⟩, rfl⟩
      obtain ⟨key, isKey, equal⟩ := consistent.answered a asked
      exact ⟨key, mem_of_getElem? isKey, Quotient.sound (keys.symm a.1 key equal)⟩
  calc s.storage.rows.length = (s.storage.rows.map (Quotient.mk keys.setoid)).length :=
        (length_map _).symm
    _ = (s.storage.rows.map (Quotient.mk keys.setoid)).toFinset.card :=
        (toFinset_card_of_nodup nodup).symm
    _ = keys.distinct (s.answers.map fst) := by
        rw [classes, Keys.distinct]

/-- No key has two rows, in any of the generations. -/
theorem no_duplicate_groups (reached : Reaches Session.step ReadsProbed (new false) s) :
    (s.storage.rows.Pairwise fun k l => keys.equals k l = false) ∧
      s.storage.rows.length = keys.distinct (s.answers.map Prod.fst) ∧
      ∀ row memory, s.ReadsProbed (.getTargetRow row memory) → s.AnswersByKey row memory := by
  have consistent : s.Consistent :=
    Reaches.invariant (consistent_new false) (fun _ _ _ before probed taken =>
      before.step probed taken) reached
  refine ⟨consistent.pairwise, consistent.length_rows, fun row memory probed => ?_⟩
  exact consistent.answersByKey
    (Storage.getTargetRow_answers consistent.sound probed.1 probed.2)

/-- A key of an older generation at the beginning of its chain. -/
theorem no_duplicate_groups_older : ∃ s : Session allSame,
    execute Session.step ReadsProbed (new false)
      [.getTargetRow (5 : Nat) ⟨true, true, true⟩, .startNewGeneration true,
        .getTargetRow (5 : Nat) ⟨true, true, true⟩] = some s ∧
      s.answers.map Prod.snd = [(true, 0), (false, 0)] ∧
      s.storage.rows.length = allSame.distinct (s.answers.map Prod.fst) := by
  have run : (execute Session.step ReadsProbed (new false : Session allSame)
      [.getTargetRow (5 : Nat) ⟨true, true, true⟩, .startNewGeneration true,
        .getTargetRow (5 : Nat) ⟨true, true, true⟩]).map (fun s => s.answers.map snd) =
      some [(true, 0), (false, 0)] := by
    decide +kernel
  obtain ⟨s, done, answers⟩ := Option.map_eq_some_iff.mp run
  exact ⟨s, done, answers, (no_duplicate_groups (reaches_of_execute done)).2.1⟩

lemma steps_of_calls {allowed : Session keys → keys.Key × Memory → Prop} {start : Session keys}
    (reached : Reaches Session.call allowed start s) :
    Reaches Session.step (fun _ _ => True) start s := by
  induction reached with
  | here => exact .here
  | next _ _ taken earlier => exact .next (a := .getTargetRow _ _) earlier trivial taken

/-- The key 1 is in the second slot of the first generation. After 127 keys with one hash, a call
for it while memory is short starts a generation and gives it a second row. -/
theorem key_of_older_generation_missed :
    ∃ s : Session allSame, Reaches Session.step (fun _ _ => True) (new false) s ∧
      ((1 : Nat), true, 1) ∈ s.answers ∧
      (s.storage.getTargetRow (1 : Nat) ⟨false, true, true⟩).map Prod.snd = .ok (true, 127) := by
  refine ⟨collided 127, steps_of_calls (reaches_collided ⟨false, true, true⟩ rfl rfl
    (by decide : 126 < 127)), by decide, ?_⟩
  decide +kernel

end Session

end RowAggStorage
