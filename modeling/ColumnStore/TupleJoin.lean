import ColumnStore.JoinKeys

/-!
# The join of a batch in PrimProc

`BatchPrimitiveProcessor::executeTupleJoin` runs over the projected rows of a block. A row is first
tested against the hash tables of all joiners; for a row that passes, the joiners one after the
other append the numbers of the small rows to the match list of the next output row, and may still
turn the row down. A row that all of them keep is moved to the front of the buffers.

Modelled are both stages for typed and for typeless keys, the join filters, the scalar check, the
in-place compaction of the four buffers and the limit on the matches of one call. Left out are the
abortion by the send thread and the contents of the small rows, of which a join filter is given the
number.
-/

namespace TupleJoin

open JoinKeys List Function

/-- `(uint32_t)-1` in a match list: the NULL row of the small side. -/
def noRow : Nat := 2 ^ 32 - 1

/-- One integer key: `tJoiners[j]` and what is read of a large row for it. -/
structure TypedKeys (R : Type) where
  isNullValue : R → Bool
  largeKey : R → BitVec 64
  tJoiner : Nat → List (BitVec 64 × Nat)
  doMatchNulls : Bool
  joinNullValue : BitVec 64

/-- Several keys or a string: `tlJoiners[j]`, which holds no NULLs. -/
structure TypelessKeys (R K : Type) where
  hasNullValue : R → Bool
  typelessData : R → K
  hashTypeless : R → Nat
  tlJoiner : Nat → List (K × Nat)

inductive Keys (R K : Type) where
  | typed (keys : TypedKeys R)
  | typeless (keys : TypelessKeys R K)

structure Joiner (R K : Type) where
  joinType : JoinType
  keys : Keys R K
  /-- `joinFEFilters[j]` on the large row and the small row of a number. -/
  joinFEFilter : R → Nat → Bool

/-- The settings of a batch primitive processor. -/
structure Processor (R K : Type) where
  processorThreads : Nat
  ptMask : Nat
  bucketPicker : BitVec 64 → Nat
  joiners : List (Joiner R K)
  mJOINHasSkewedKeyColumn : Bool

inductive ScalarException where
  | scalar
  deriving DecidableEq, Repr

variable {R K V W : Type}

def Joiner.doMatchNulls (j : Joiner R K) : Bool :=
  match j.keys with
  | .typed keys => keys.doMatchNulls
  | .typeless _ => false

namespace Processor

variable [DecidableEq K] (p : Processor R K)

def bucket (key : BitVec 64) : Nat := p.bucketPicker key &&& p.ptMask

/-- The numbers of the entries with a key in one table. -/
def equalRange {α : Type} [DecidableEq α] (table : List (α × Nat)) (key : α) : List Nat :=
  (table.filter fun entry => entry.1 = key).map (·.2)

/-- `find(key) != end()`. -/
def found {α : Type} [DecidableEq α] (table : List (α × Nat)) (key : α) : Bool :=
  table.any fun entry => entry.1 = key

/-- The first test of a row by one joiner: whether the loop does not break. -/
def admits (j : Joiner R K) (r : R) : Bool :=
  let t := j.joinType
  if t.anti && t.withFcnExp then true
  else if t.anti && j.doMatchNulls then false
  else
    match j.keys with
    | .typed keys =>
      let table := keys.tJoiner (p.bucket (keys.largeKey r))
      let joinerIsEmpty := table.isEmpty
      let found := found table (keys.largeKey r)
      let isNull := keys.isNullValue r
      !(((!found || isNull) && !(t.largeOuter || t.anti)) ||
        (t.anti && !joinerIsEmpty && ((isNull && t.matchNulls) || (found && !isNull))))
    | .typeless keys =>
      let found :=
        found (keys.tlJoiner (keys.hashTypeless r &&& p.ptMask)) (keys.typelessData r)
      if (!found && !(t.largeOuter || t.anti)) || t.anti then
        if t.anti then
          if found then false
          -- keys with NULLs match everything
          else if t.matchNulls then !keys.hasNullValue r
          else true
        else false
      else true

/-- The whole contents of the tables of a joiner. -/
def everything {α : Type} (tables : Nat → List (α × Nat)) : List Nat :=
  (List.range p.processorThreads).flatMap fun i => (tables i).map (·.2)

def getJoinResults (j : Joiner R K) (r : R) : List Nat :=
  match j.keys with
  | .typed keys =>
    if keys.isNullValue r then
      if j.joinType.anti then p.everything keys.tJoiner else []
    else
      let key := keys.largeKey r
      equalRange (keys.tJoiner (p.bucket key)) key ++
        if keys.doMatchNulls then
          equalRange (keys.tJoiner (p.bucket keys.joinNullValue)) keys.joinNullValue
        else []
  | .typeless keys =>
    if j.joinType.anti && keys.hasNullValue r then p.everything keys.tlJoiner
    else
      equalRange (keys.tlJoiner (keys.hashTypeless r &&& p.ptMask)) (keys.typelessData r)

/-- The join filter over a match list. One match decides an anti-join and a plain semi-join. -/
def applyFilter (j : Joiner R K) (r : R) (list : List Nat) : List Nat :=
  if j.joinType.anti || (j.joinType.semi && !j.joinType.scalar) then
    (list.find? (j.joinFEFilter r)).toList
  else list.filter (j.joinFEFilter r)

/-- The match list after the search, the join filter and the NULL row of an outer join. -/
def gather (j : Joiner R K) (r : R) (list : List Nat) : List Nat :=
  let joined := list ++ p.getJoinResults j r
  let filtered := if j.joinType.withFcnExp then applyFilter j r joined else joined
  if filtered.isEmpty && j.joinType.largeOuter then [noRow] else filtered

/-- The reversal of the result for an anti-join. -/
def reversed (t : JoinType) (list : List Nat) : List Nat :=
  if t.anti then (if list.isEmpty then [noRow] else []) else list

/-- The scalar check, the reversal for an anti-join and the NULL row of a semi-join. -/
def settle (t : JoinType) (list : List Nat) : Except ScalarException (List Nat × Option Nat) :=
  if t.scalar && decide (1 < list.length) then .error .scalar
  else if (reversed t list).isEmpty then .ok ([], none)
  -- non-scalar semi-joins are paired with a NULL row
  else if t.semi && !t.scalar then .ok ([noRow], some 1)
  else .ok (reversed t list, some (reversed t list).length)

/-- The second stage for one joiner. The match list of the next output row is appended to and
rewritten; the number is what the result count grows by, and without one the row is not in the
result. -/
def collect (j : Joiner R K) (r : R) (list : List Nat) :
    Except ScalarException (List Nat × Option Nat) :=
  let t := j.joinType
  -- the result is already known
  if (t.semi || t.anti) && !t.withFcnExp && !t.scalar then .ok (list ++ [noRow], some 0)
  else settle t (p.gather j r list)

/-- The second stage from joiner `n` on: the match lists by joiner, what the result count grows by,
and whether the row is in the result. -/
def collectAll (r : R) : List (Joiner R K) → Nat → (Nat → List Nat) →
    Except ScalarException ((Nat → List Nat) × Nat × Bool)
  | [], _, lists => .ok (lists, 0, true)
  | j :: rest, n, lists =>
    match p.collect j r (lists n) with
    | .error e => .error e
    | .ok (list, none) => .ok (Function.update lists n list, 0, false)
    | .ok (list, some matchCount) =>
      (collectAll r rest (n + 1) (Function.update lists n list)).map fun out =>
        (out.1, matchCount + out.2.1, out.2.2)

end Processor

/-- The buffers of a block: by row the columns projected before the join, the two value buffers and
the row number in the block; by joiner and row the match lists. -/
structure Buffers (R V W : Type) where
  outputRG : Nat → R
  values : Nat → V
  wide128Values : Nat → W
  relRids : Nat → Nat
  tSmallSideMatches : Nat → Nat → List Nat

structure Progress (R V W : Type) extends Buffers R V W where
  newRowCount : Nat
  resultCount : Nat

/-- The copy of row `i`, whose columns are `r`, to the next output row. -/
def Progress.copyRow (skewed : Bool) (i : Nat) (r : R) (s : Progress R V W) : Progress R V W :=
  if i ≠ s.newRowCount then
    { s with
      values := Function.update s.values s.newRowCount (s.values i)
      wide128Values :=
        if skewed then Function.update s.wide128Values s.newRowCount (s.wide128Values i)
        else s.wide128Values
      relRids := Function.update s.relRids s.newRowCount (s.relRids i)
      outputRG := Function.update s.outputRG s.newRowCount r
      newRowCount := s.newRowCount + 1 }
  else { s with newRowCount := s.newRowCount + 1 }

/-- The match lists of the next output row and the result count after the second stage. -/
def Progress.store (lists : Nat → List Nat) (added : Nat) (s : Progress R V W) : Progress R V W :=
  { s with
    tSmallSideMatches := fun j k => if k = s.newRowCount then lists j else s.tSmallSideMatches j k
    resultCount := s.resultCount + added }

namespace Processor

variable [DecidableEq K] (p : Processor R K)

def admitsAll (r : R) : Bool := p.joiners.all fun j => p.admits j r

/-- One turn of the loop: row `i`, with `oldRow` at row `old` of the output row group. -/
def joinRow (i old : Nat) (s : Progress R V W) : Except ScalarException (Progress R V W) :=
  let r := s.outputRG old
  if p.admitsAll r then
    (p.collectAll r p.joiners 0 fun j => s.tSmallSideMatches j s.newRowCount).map fun out =>
      let s := s.store out.1 out.2.1
      if out.2.2 then s.copyRow p.mJOINHasSkewedKeyColumn i r else s
  else .ok s

/-- `resultCount >= maxResultCount`, if there is a limit. -/
def reached (maxResultCount : Option Nat) (count : Nat) : Bool := maxResultCount.any (· ≤ count)

variable (maxResultCount : Option Nat)

/-- The loop over the given number of rows from row `i` on. -/
def joinRows : Nat → Nat → Nat → Progress R V W → Except ScalarException (Progress R V W)
  | 0, _, _, s => .ok s
  | rows + 1, i, old, s =>
    match p.joinRow i old s with
    | .error e => .error e
    | .ok s =>
      if reached maxResultCount s.resultCount then .ok s else joinRows rows (i + 1) (old + 1) s

/-- The buffers with `ridCount` in `newRowCount`, and the row to go on with. `oldRow` is set to the
first row of the output row group in every call. -/
def executeTupleJoin (origRidCount startRid : Nat) (b : Buffers R V W) :
    Except ScalarException (Progress R V W × Nat) :=
  (p.joinRows maxResultCount (origRidCount - startRid) startRid 0 ⟨b, 0, 0⟩).map fun s =>
    (s, if reached maxResultCount s.resultCount then startRid + s.newRowCount else 0)

end Processor

/-- An output row: the columns projected before the join, what the other columns are projected
from, and the match lists by joiner. -/
structure Output (R V W : Type) where
  row : R
  value : V
  wide128Value : W
  relRid : Nat
  matchLists : List (List Nat)

variable {list : List Nat} {n added i : Nat} {j : Joiner R K} {r : R} {lists : Nat → List Nat}
  {s : Progress R V W}

namespace Processor

variable (p : Processor R K)

def output (b : Buffers R V W) (k : Nat) : Output R V W where
  row := b.outputRG k
  value := b.values k
  wide128Value := b.wide128Values k
  relRid := b.relRids k
  matchLists := (List.range p.joiners.length).map fun j => b.tSmallSideMatches j k

def outputs (s : Progress R V W) : List (Output R V W) :=
  (List.range s.newRowCount).map (p.output s.toBuffers)

variable {p}

/-- Nothing is in the match lists of joiner `j` for the next output rows. -/
def Fresh (s : Progress R V W) (j : Nat) : Prop :=
  ∀ k, s.newRowCount ≤ k → s.tSmallSideMatches j k = []

lemma store_empty (fresh : ∀ j, Fresh s j) : s.store (fun _ => []) 0 = s := by
  have same : (fun j k => if k = s.newRowCount then [] else s.tSmallSideMatches j k) =
      s.tSmallSideMatches := by
    funext j k
    split
    · rename_i next
      exact (fresh j k (le_of_eq next.symm)).symm
    · rfl
  rw [Progress.store, same, add_zero]

lemma outputs_store (lists : Nat → List Nat) (added : Nat) (s : Progress R V W) :
    p.outputs (s.store lists added) = p.outputs s := by
  refine map_congr_left fun k below => ?_
  have other : k ≠ s.newRowCount := Nat.ne_of_lt (mem_range.mp below)
  simp only [output, Progress.store, if_neg other]

/-- A row that stays where it is may as well be copied. -/
lemma copyRow_eq {skewed : Bool} (same : i = s.newRowCount → s.outputRG s.newRowCount = r) :
    s.copyRow skewed i r =
      { s with
        values := update s.values s.newRowCount (s.values i)
        wide128Values :=
          if skewed then update s.wide128Values s.newRowCount (s.wide128Values i)
          else s.wide128Values
        relRids := update s.relRids s.newRowCount (s.relRids i)
        outputRG := update s.outputRG s.newRowCount r
        newRowCount := s.newRowCount + 1 } := by
  rw [Progress.copyRow]
  split
  · rfl
  rename_i stays
  have stays : i = s.newRowCount := by simpa using stays
  rw [stays, update_eq_self, update_eq_self, update_eq_self,
    ← same stays, update_eq_self, ite_self]

/-- The progress after a row that is in the result. -/
structure Kept (p : Processor R K) (skewed : Bool) (i : Nat) (r : R) (lists : Nat → List Nat)
    (added : Nat) (s s' : Progress R V W) : Prop where
  newRowCount : s'.newRowCount = s.newRowCount + 1
  resultCount : s'.resultCount = s.resultCount + added
  fresh : ∀ j, Fresh s j → Fresh s' j
  outputs : p.outputs s' = p.outputs s ++
    [⟨r, s.values i, s.wide128Values (if skewed then i else s.newRowCount), s.relRids i,
      (List.range p.joiners.length).map lists⟩]
  outputRG : ∀ k, s.newRowCount < k → s'.outputRG k = s.outputRG k
  values : ∀ k, s.newRowCount < k → s'.values k = s.values k
  wide128Values : ∀ k, (skewed = true → s.newRowCount < k) →
    s'.wide128Values k = s.wide128Values k
  relRids : ∀ k, s.newRowCount < k → s'.relRids k = s.relRids k

lemma kept_copyRow {skewed : Bool} (same : i = s.newRowCount → s.outputRG s.newRowCount = r)
    (lists : Nat → List Nat) (added : Nat) :
    Kept p skewed i r lists added s ((s.store lists added).copyRow skewed i r) := by
  rw [copyRow_eq (s := s.store lists added) same]
  have other : ∀ {k}, s.newRowCount < k → k ≠ s.newRowCount := fun above => ne_of_gt above
  refine ⟨rfl, rfl, ?_, ?_, ?_, ?_, ?_, ?_⟩
  · intro j fresh k above
    simp only [Progress.store, if_neg (other above)]
    exact fresh k (Nat.le_of_succ_le above)
  · simp only [outputs, range_succ, map_append]
    congr 1
    · refine map_congr_left fun k below => ?_
      have other : k ≠ s.newRowCount := Nat.ne_of_lt (mem_range.mp below)
      cases skewed <;> simp [output, Progress.store, other]
    · cases skewed <;> simp [output, Progress.store]
  · intro k above
    exact update_of_ne (other above) _ _
  · intro k above
    exact update_of_ne (other above) _ _
  · intro k above
    cases skewed
    · rfl
    · exact update_of_ne (other (above rfl)) _ _
  · intro k above
    exact update_of_ne (other above) _ _

end Processor

namespace Processor

variable [DecidableEq K] (p : Processor R K)

/-- The second stage of a row on empty match lists. -/
def alone (r : R) : Except ScalarException ((Nat → List Nat) × Nat × Bool) :=
  if p.admitsAll r then p.collectAll r p.joiners 0 fun _ => []
  else .ok (fun _ => [], 0, false)

/-- The row is admitted and then turned down by a joiner after the first one. -/
def RejectedLate (r : R) : Prop :=
  ∃ lists added, p.alone r = .ok (lists, added, false) ∧ lists ≠ fun _ => []

/-- What the output shows of the second stage. -/
def visible (out : (Nat → List Nat) × Nat × Bool) : Option (List (List Nat)) :=
  if out.2.2 then some ((List.range p.joiners.length).map out.1) else none

/-- What a row alone contributes to the output. -/
def contribution (r : R) : Except ScalarException (Option (List (List Nat))) :=
  (p.alone r).map p.visible

/-- The rows of a batch that are in the result, each with the match lists computed for it alone. -/
def rowByRow : List R → Except ScalarException (List (R × List (List Nat)))
  | [] => .ok []
  | r :: rest =>
    match p.contribution r with
    | .error e => .error e
    | .ok own =>
      (rowByRow rest).map fun others => (own.map fun lists => (r, lists)).toList ++ others

variable {p}

variable {list' : List Nat}

lemma settle_ok {t : JoinType} {count : Option Nat}
    (run : settle t list = .ok (list', count)) : list' = [] ↔ count = none := by
  simp only [settle] at run
  split_ifs at run with _ empty plain <;> cases run
  · simp
  · simp
  · simpa using empty

lemma collect_ok {count : Option Nat} (run : p.collect j r list = .ok (list', count)) :
    list' = [] ↔ count = none := by
  simp only [collect] at run
  split at run
  · cases run
    simp
  · exact settle_ok run

/-- A joiner turns the row down, or it hands the row on to the others. -/
lemma collectAll_cons {rest : List (Joiner R K)} {lists' : Nat → List Nat} {kept : Bool}
    (run : p.collectAll r (j :: rest) n lists = .ok (lists', added, kept)) :
    (∃ list, p.collect j r (lists n) = .ok (list, none) ∧
        lists' = update lists n list ∧ added = 0 ∧ kept = false) ∨
      ∃ list count others, p.collect j r (lists n) = .ok (list, some count) ∧
        p.collectAll r rest (n + 1) (update lists n list) = .ok (lists', others, kept) := by
  rw [collectAll] at run
  split at run
  · cases run
  · rename_i list first
    cases run
    exact .inl ⟨list, first, rfl, rfl, rfl⟩
  rename_i list count first
  cases inner : p.collectAll r rest (n + 1) (update lists n list) with
  | error e => simp [inner, Except.map] at run
  | ok out =>
    rw [inner] at run
    cases run
    exact .inr ⟨list, count, out.2.1, first, inner⟩

lemma collectAll_below {js : List (Joiner R K)} {lists' : Nat → List Nat} {kept : Bool}
    (run : p.collectAll r js n lists = .ok (lists', added, kept)) {k : Nat} (below : k < n) :
    lists' k = lists k := by
  induction js generalizing n lists added with
  | nil =>
    cases run
    rfl
  | cons j rest ih =>
    have other : ∀ list, update lists n list k = lists k := fun list =>
      update_of_ne (Nat.ne_of_lt below) list lists
    obtain ⟨list, -, rfl, -⟩ | ⟨list, -, others, -, inner⟩ := collectAll_cons run
    · exact other list
    · rw [ih inner (by omega), other]

/-- A row that the first joiner turns down leaves nothing behind. -/
lemma alone_rejected (run : p.alone r = .ok (lists, added, false)) (early : ¬p.RejectedLate r) :
    lists = (fun _ => []) ∧ added = 0 := by
  have clean : lists = fun _ => [] := by
    by_contra left
    exact early ⟨lists, added, run, left⟩
  refine ⟨clean, ?_⟩
  rw [alone] at run
  split at run
  · cases joiners : p.joiners with
    | nil => simp [joiners, collectAll] at run
    | cons j rest =>
      rw [joiners] at run
      obtain ⟨list, -, -, rejected, -⟩ | ⟨list, count, others, first, inner⟩ := collectAll_cons run
      · exact rejected
      -- otherwise the list of the first joiner would have stayed
      have left := collectAll_below inner (k := 0) (by omega)
      rw [clean] at left
      exact absurd ((collect_ok first).mp left.symm) nofun
  · cases run
    rfl

lemma joinRow_fresh (fresh : ∀ j, Fresh s j) (i old : Nat) :
    p.joinRow i old s = (p.alone (s.outputRG old)).map fun out =>
      if out.2.2 then
        (s.store out.1 out.2.1).copyRow p.mJOINHasSkewedKeyColumn i (s.outputRG old)
      else s.store out.1 out.2.1 := by
  have empty : (fun j => s.tSmallSideMatches j s.newRowCount) = fun _ => [] :=
    funext fun j => fresh j _ (le_refl _)
  rw [joinRow, alone, empty]
  split
  · rfl
  · simp [Except.map, store_empty fresh]

lemma joinRows_idle {limit : Option Nat} {rows old : Nat}
    (idle : ∀ m < rows, p.admitsAll (s.outputRG (old + m)) = false) :
    p.joinRows limit rows i old s = .ok s := by
  induction rows generalizing i old with
  | zero => rfl
  | succ rows ih =>
    rw [joinRows, joinRow, if_neg (by simpa using idle 0 (by omega))]
    dsimp only
    split
    · rfl
    · refine ih fun m below => ?_
      have next := idle (m + 1) (by omega)
      rwa [show old + (m + 1) = old + 1 + m by omega] at next

lemma rowByRow_idle {rest : List R} (idle : ∀ r ∈ rest, p.admitsAll r = false) :
    p.rowByRow rest = .ok [] := by
  induction rest with
  | nil => rfl
  | cons r rest ih =>
    have unkept : p.contribution r = .ok none := by
      rw [contribution, alone, if_neg (by simp [idle r])]
      rfl
    rw [rowByRow, unkept, ih fun r' member => idle r' (mem_cons_of_mem r member)]
    rfl

/-- A semi-join that is an outer join too and has a filter ends with the NULL row, whatever is in
its list. -/
def overwrites (t : JoinType) : Bool :=
  t.semi && t.largeOuter && t.withFcnExp && !t.anti && !t.scalar

/-- The joiner depends on what is in its list. -/
def Reads (p : Processor R K) (n : Nat) : Prop :=
  ∃ j, p.joiners[n]? = some j ∧ overwrites j.joinType = false

/-- The row is admitted and then turned down, with something left in a list that is read. -/
def LeavesMatches (p : Processor R K) (r : R) : Prop :=
  ∃ lists added, p.alone r = .ok (lists, added, false) ∧ ∃ n, p.Reads n ∧ lists n ≠ []

/-- A row that leaves matches is followed by rows that are not admitted only. -/
def Clean (p : Processor R K) (batch : List R) : Prop :=
  batch.Pairwise fun earlier later => p.LeavesMatches earlier → p.admitsAll later = false

lemma gather_outer (outer : j.joinType.largeOuter) (r : R) (list : List Nat) :
    p.gather j r list ≠ [] := by
  rw [gather]
  generalize (if j.joinType.withFcnExp then applyFilter j r (list ++ p.getJoinResults j r)
    else list ++ p.getJoinResults j r) = filtered
  cases filtered <;> simp [outer]

lemma collect_overwrites (unread : overwrites j.joinType) (r : R) (list : List Nat) :
    p.collect j r list = .ok ([noRow], some 1) := by
  simp only [overwrites, Bool.and_eq_true, Bool.not_eq_true'] at unread
  obtain ⟨⟨⟨⟨semi, outer⟩, filtered⟩, plain⟩, notScalar⟩ := unread
  have gathered := gather_outer (p := p) outer r list
  simp [collect, settle, reversed, semi, filtered, plain, notScalar, gathered]

/-- The second stage is the same for lists that differ only where they are overwritten. -/
lemma collectAll_agree (js : List (Joiner R K)) (lists lists' : Nat → List Nat)
    (same : ∀ m j, js[m]? = some j → overwrites j.joinType = false →
      lists (n + m) = lists' (n + m)) :
    (∀ e, p.collectAll r js n lists = .error e → p.collectAll r js n lists' = .error e) ∧
      ∀ out added kept, p.collectAll r js n lists = .ok (out, added, kept) →
        ∃ out', p.collectAll r js n lists' = .ok (out', added, kept) ∧
          ∀ m j, js[m]? = some j → kept = true ∨ overwrites j.joinType = false →
            out (n + m) = out' (n + m) := by
  induction js generalizing n lists lists' with
  | nil =>
    refine ⟨nofun, fun out added kept run => ?_⟩
    cases run
    exact ⟨lists', rfl, nofun⟩
  | cons j rest ih =>
    have first : p.collect j r (lists' n) = p.collect j r (lists n) := by
      by_cases unread : overwrites j.joinType
      · rw [collect_overwrites unread, collect_overwrites unread]
      · rw [← n.add_zero, same 0 j rfl (by simpa using unread)]
    have later : ∀ m j', rest[m]? = some j' → overwrites j'.joinType = false →
        ∀ list, update lists n list (n + 1 + m) = update lists' n list (n + 1 + m) := by
      intro m j' there reads list
      rw [update_of_ne (by omega), update_of_ne (by omega), show n + 1 + m = n + (m + 1) by omega]
      exact same (m + 1) j' there reads
    rw [collectAll, collectAll, first]
    cases p.collect j r (lists n) with
    | error e => exact ⟨fun _ failed => failed, nofun⟩
    | ok result =>
      obtain ⟨list, _ | matchCount⟩ := result
      · refine ⟨nofun, fun out added kept run => ?_⟩
        cases run
        refine ⟨_, rfl, fun m j' there reads => ?_⟩
        cases m with
        | zero => rw [n.add_zero, update_self, update_self]
        | succ m =>
          rw [show n + (m + 1) = n + 1 + m by omega]
          exact later m j' there (reads.resolve_left nofun) list
      obtain ⟨fails, runs⟩ := ih _ _ fun m j' there reads => later m j' there reads list
      dsimp only
      cases inner : p.collectAll r rest (n + 1) (update lists n list) with
      | error e =>
        rw [fails e inner]
        exact ⟨fun _ failed => failed, nofun⟩
      | ok result =>
        obtain ⟨out, added, kept⟩ := result
        obtain ⟨out', inner', agree⟩ := runs out added kept inner
        rw [inner']
        refine ⟨nofun, fun _ _ _ run => ?_⟩
        cases run
        refine ⟨out', rfl, fun m j' there reads => ?_⟩
        cases m with
        | zero =>
          dsimp only
          rw [n.add_zero, collectAll_below inner (by omega), collectAll_below inner' (by omega),
            update_self, update_self]
        | succ m =>
          rw [show n + (m + 1) = n + 1 + m by omega]
          exact agree m j' there reads

/-- With nothing in the lists that are read, a turn of the loop is what the row is alone. -/
lemma joinRow_reads (fresh : ∀ n, p.Reads n → Fresh s n) (i old : Nat) :
    (∀ e, p.alone (s.outputRG old) = .error e → p.joinRow i old s = .error e) ∧
      ∀ lists added kept, p.alone (s.outputRG old) = .ok (lists, added, kept) →
        ∃ lists', (∀ n, p.Reads n → lists' n = lists n) ∧
          p.visible (lists', added, kept) = p.visible (lists, added, kept) ∧
          p.joinRow i old s = .ok (if kept then (s.store lists' added).copyRow
            p.mJOINHasSkewedKeyColumn i (s.outputRG old) else s.store lists' added) := by
  rw [joinRow, alone]
  split
  case isFalse =>
    refine ⟨nofun, fun lists added kept run => ?_⟩
    cases run
    refine ⟨fun j => s.tSmallSideMatches j s.newRowCount, fun n reads => fresh n reads _ le_rfl,
      rfl, ?_⟩
    have same : (fun j k => if k = s.newRowCount then s.tSmallSideMatches j s.newRowCount
        else s.tSmallSideMatches j k) = s.tSmallSideMatches := by
      funext j k
      split <;> simp_all
    simp [Progress.store, same]
  obtain ⟨fails, runs⟩ := collectAll_agree (p := p) (r := s.outputRG old) (n := 0) p.joiners
    (fun _ => []) (fun j => s.tSmallSideMatches j s.newRowCount) fun m j there reads => by
      rw [Nat.zero_add]
      exact (fresh m ⟨j, there, reads⟩ _ le_rfl).symm
  refine ⟨fun e failed => by rw [fails e failed]; rfl, fun lists added kept run => ?_⟩
  obtain ⟨lists', run', agree⟩ := runs lists added kept run
  simp only [Nat.zero_add] at agree
  refine ⟨lists', ?_, ?_, by rw [run']; rfl⟩
  · rintro n ⟨j, there, reads⟩
    exact (agree n j there (.inr reads)).symm
  · cases kept with
    | false => rfl
    | true =>
      refine congrArg some (map_congr_left fun m below => ?_)
      exact (agree m _ (getElem?_eq_getElem (mem_range.mp below)) (.inl rfl)).symm

end Processor

/-- The columns projected before the join and the match lists. -/
def Output.joined (o : Output R V W) : R × List (List Nat) := (o.row, o.matchLists)

namespace Processor

variable {p : Processor R K}

/-- A run fails only as the rows do, and if it comes to its end it adds to the output before it
what they give. -/
def Adds (p : Processor R K) (limit : Option Nat) (before : List (R × List (List Nat))) :
    Except ScalarException (Progress R V W) →
      Except ScalarException (List (R × List (List Nat))) → Prop
  | .error e, given => given = .error e
  | .ok s, given => reached limit s.resultCount = false →
    ∃ others, given = .ok others ∧ (p.outputs s).map Output.joined = before ++ others

lemma Adds.next {limit : Option Nat} {before own : List (R × List (List Nat))}
    {run : Except ScalarException (Progress R V W)}
    {given : Except ScalarException (List (R × List (List Nat)))}
    (tail : p.Adds limit ((p.outputs s).map Output.joined) run given)
    (row : (p.outputs s).map Output.joined = before ++ own) :
    p.Adds limit before (if reached limit s.resultCount then .ok s else run)
      (given.map (own ++ ·)) := by
  split_ifs with cut
  · intro uncut
    rw [cut] at uncut
    cases uncut
  cases run with
  | error e => exact congrArg _ tail
  | ok s' =>
    intro uncut
    obtain ⟨others, rfl, outputs⟩ := tail uncut
    exact ⟨own ++ others, rfl, by rw [outputs, row, append_assoc]⟩

variable [DecidableEq K]

/-- A row that is turned down and leaves nothing leaves the lists that are read empty. -/
lemma fresh_store (fresh : ∀ n, p.Reads n → Fresh s n) {lists' : Nat → List Nat}
    (own : p.alone r = .ok (lists, added, false)) (same : ∀ n, p.Reads n → lists' n = lists n)
    (leaves : ¬ p.LeavesMatches r) : ∀ n, p.Reads n → Fresh (s.store lists' added) n := by
  intro n reads k above
  have empty : lists' n = [] := by
    rw [same n reads]
    by_contra left
    exact leaves ⟨lists, added, own, n, reads, left⟩
  simp only [Progress.store, empty]
  split
  exacts [rfl, fresh n reads k above]

/-- The rest of a batch: a call that runs to its end adds the rows with the lists that are theirs,
and it fails only as one of the rows does. -/
lemma joinRows_clean (limit : Option Nat) {rest : List R}
    (fresh : ∀ n, p.Reads n → Fresh s n) (front : s.newRowCount ≤ i)
    (rows : ∀ m < rest.length, rest[m]? = some (s.outputRG (i + m)))
    (clean : p.Clean rest) :
    p.Adds limit ((p.outputs s).map Output.joined) (p.joinRows limit rest.length i i s)
      (p.rowByRow rest) := by
  induction rest generalizing s i with
  | nil => exact fun _ => ⟨[], rfl, (append_nil _).symm⟩
  | cons r rest ih =>
    have row : s.outputRG i = r := by simpa using (rows 0 (by simp)).symm
    have later : ∀ m < rest.length, rest[m]? = some (s.outputRG (i + 1 + m)) := fun m below => by
      have next := rows (m + 1) (by simpa using below)
      rwa [show i + (m + 1) = i + 1 + m by omega] at next
    obtain ⟨first, clean⟩ := pairwise_cons.mp clean
    obtain ⟨fails, runs⟩ := joinRow_reads fresh i i
    rw [row] at fails runs
    rw [length_cons, joinRows, rowByRow, contribution]
    cases own : p.alone r with
    | error e =>
      rw [fails e own]
      rfl
    | ok out =>
      obtain ⟨lists, added, kept⟩ := out
      obtain ⟨lists', same, shown, turn⟩ := runs lists added kept own
      rw [turn]
      simp only [Except.map, ← shown]
      cases kept with
      | true =>
        have step : Kept p p.mJOINHasSkewedKeyColumn i r lists' added s
            ((s.store lists' added).copyRow p.mJOINHasSkewedKeyColumn i r) :=
          kept_copyRow (fun stays => stays ▸ row) lists' added
        rw [if_pos rfl]
        generalize (s.store lists' added).copyRow p.mJOINHasSkewedKeyColumn i r = s₁ at step
        refine (ih (fun n reads => step.fresh n (fresh n reads)) (by rw [step.newRowCount]; omega)
          (fun m below => by rw [later m below, step.outputRG _ (by omega)]) clean).next ?_
        rw [step.outputs, map_append]
        rfl
      | false =>
        simp only [Bool.false_eq_true, if_false]
        have unchanged : p.outputs (s.store lists' added) = p.outputs s := outputs_store ..
        by_cases leaves : p.LeavesMatches r
        · -- nothing happens any more
          have idle : ∀ r' ∈ rest, p.admitsAll r' = false := fun r' member => first r' member leaves
          have stopped : p.joinRows limit rest.length (i + 1) (i + 1) (s.store lists' added) =
              .ok (s.store lists' added) :=
            joinRows_idle fun m below => idle _ (mem_of_getElem? (later m below))
          rw [stopped, ite_self]
          intro _
          refine ⟨[], by rw [rowByRow_idle idle]; rfl, ?_⟩
          rw [unchanged, append_nil]
        · have stays := fresh_store fresh own same leaves
          refine unchanged ▸
            (ih stays (by simpa [Progress.store] using by omega) later clean).next ?_
          exact (append_nil _).symm

end Processor

/-- The buffers before the first call: the rows of the batch and empty match lists. -/
structure Buffers.Holds (b : Buffers R V W) (batch : List R) : Prop where
  rows : ∀ m < batch.length, batch[m]? = some (b.outputRG m)
  empty : ∀ j k, b.tSmallSideMatches j k = []

namespace Processor

variable [DecidableEq K] {p : Processor R K}

/-- The call gives each row the result that the row has alone: it fails only as one of the rows
does, and if the limit is not reached then the output are the rows in the result with their own
match lists. -/
def Own (p : Processor R K) (limit : Option Nat) (batch : List R) (b : Buffers R V W) : Prop :=
  match p.executeTupleJoin limit batch.length 0 b with
  | .error e => p.rowByRow batch = .error e
  | .ok (s, _) => reached limit s.resultCount = false →
    p.rowByRow batch = .ok ((p.outputs s).map Output.joined)

lemma own_of_clean {batch : List R} {b : Buffers R V W} (holds : b.Holds batch)
    (clean : p.Clean batch) (limit : Option Nat) : p.Own limit batch b := by
  have run := joinRows_clean limit (s := ⟨b, 0, 0⟩) (i := 0)
    (fun n _ k _ => holds.empty n k) (le_refl 0)
    (fun m below => by simpa using holds.rows m below) clean
  rw [Own, executeTupleJoin]
  cases result : p.joinRows limit batch.length 0 0 ⟨b, 0, 0⟩ with
  | error e =>
    rw [result] at run
    exact run
  | ok s =>
    rw [result] at run
    intro uncut
    obtain ⟨others, same, outputs⟩ := run uncut
    rw [same, outputs]
    rfl

end Processor

/-- The second stage can turn down a row that the first test has admitted. -/
def mayReject (t : JoinType) : Bool :=
  if t.anti then t.withFcnExp || t.scalar else t.withFcnExp && !t.largeOuter

namespace Processor

lemma equalRange_ne_nil {α : Type} [DecidableEq α] {table : List (α × Nat)} {key : α}
    (there : found table key) : equalRange table key ≠ [] := by
  obtain ⟨entry, member, same⟩ := any_eq_true.mp there
  exact ne_nil_of_mem (mem_map_of_mem (mem_filter.mpr ⟨member, same⟩))

variable [DecidableEq K] {p : Processor R K}

lemma getJoinResults_ne_nil (admitted : p.admits j r)
    (inner : j.joinType.largeOuter = false) (plain : j.joinType.anti = false) :
    p.getJoinResults j r ≠ [] := by
  rw [admits] at admitted
  simp only [plain, inner, Bool.false_and, Bool.false_eq_true, if_false, Bool.or_false,
    Bool.not_false, Bool.and_true] at admitted
  rw [getJoinResults]
  split
  · rename_i keys typed
    simp only [typed, Bool.not_or, Bool.not_not, Bool.and_eq_true, Bool.not_eq_true'] at admitted
    rw [if_neg (by simp [admitted.2])]
    exact append_ne_nil_of_left_ne_nil (equalRange_ne_nil admitted.1) _
  rename_i keys typeless
  simp only [typeless] at admitted
  rw [plain]
  refine equalRange_ne_nil ?_
  by_contra missing
  simp [missing] at admitted

lemma gather_ne_nil (admitted : p.admits j r) (sure : mayReject j.joinType = false)
    (plain : j.joinType.anti = false) (list : List Nat) : p.gather j r list ≠ [] := by
  by_cases outer : j.joinType.largeOuter
  · exact gather_outer outer r list
  have inner : j.joinType.largeOuter = false := by simpa using outer
  have unfiltered : j.joinType.withFcnExp = false := by simpa [mayReject, plain, inner] using sure
  simp only [gather, unfiltered, inner, Bool.and_false]
  exact append_ne_nil_of_right_ne_nil _ (getJoinResults_ne_nil admitted inner plain)

lemma collect_ne_none (admitted : p.admits j r) (sure : mayReject j.joinType = false)
    (list list' : List Nat) : p.collect j r list ≠ .ok (list', none) := by
  simp only [collect]
  split
  · nofun
  rename_i unknown
  have plain : j.joinType.anti = false := by
    by_contra anti
    simp_all [mayReject]
  have nonempty : (reversed j.joinType (p.gather j r list)).isEmpty = false := by
    rw [reversed, if_neg (by simp [plain])]
    simpa using gather_ne_nil admitted sure plain list
  rw [settle]
  split
  · nofun
  · rw [if_neg (by simp [nonempty])]
    split <;> nofun

lemma collectAll_kept {js : List (Joiner R K)} {out : (Nat → List Nat) × Nat × Bool}
    (sure : ∀ m j, js[m]? = some j → ∀ list', p.collect j r (lists (n + m)) ≠ .ok (list', none))
    (run : p.collectAll r js n lists = .ok out) : out.2.2 := by
  induction js generalizing n lists out with
  | nil =>
    cases run
    rfl
  | cons j rest ih =>
    obtain ⟨list, first, -⟩ | ⟨list, -, others, -, inner⟩ := collectAll_cons run
    · exact absurd first (sure 0 j rfl list)
    · exact @ih _ _ (out.1, others, out.2.2) (fun m j' later list' => by
        rw [update_of_ne (by omega), show n + 1 + m = n + (m + 1) by omega]
        exact sure (m + 1) j' later list') inner

/-- No joiner after the first one that reads its list can turn down a row in the second stage. -/
def Undisturbed (types : List JoinType) : Prop :=
  ∀ t ∈ (types.dropWhile overwrites).tail, mayReject t = false

/-- Joiners that accept the row leave the lists of the others as they are. -/
lemma collectAll_append (before : List (Joiner R K)) (n : Nat) (lists : Nat → List Nat)
    (accepted : ∀ m j, before[m]? = some j →
      ∃ list count, p.collect j r (lists (n + m)) = .ok (list, some count)) :
    ∃ lists' added, (∀ k, n + before.length ≤ k → lists' k = lists k) ∧
      ∀ after, p.collectAll r (before ++ after) n lists =
        (p.collectAll r after (n + before.length) lists').map fun out =>
          (out.1, added + out.2.1, out.2.2) := by
  induction before generalizing n lists with
  | nil =>
    refine ⟨lists, 0, fun _ _ => rfl, fun after => ?_⟩
    simp only [zero_add]
    exact (congrFun Except.map_id _).symm
  | cons j before ih =>
    obtain ⟨list, count, first⟩ := accepted 0 j rfl
    obtain ⟨lists', added, others, run⟩ := ih (n + 1) (update lists n list)
      fun m j' later => by
        rw [update_of_ne (by omega), show n + 1 + m = n + (m + 1) by omega]
        exact accepted (m + 1) j' later
    have length : n + 1 + before.length = n + (j :: before).length := by simp; omega
    rw [length] at others run
    refine ⟨lists', count + added, fun k above => ?_, fun after => ?_⟩
    · rw [others k above, update_of_ne (by simp at above; omega)]
    rw [cons_append, collectAll, show p.collect j r (lists n) = .ok (list, some count) from first]
    dsimp only
    rw [run]
    cases p.collectAll r after (n + (j :: before).length) lists' with
    | error e => rfl
    | ok out => simp only [Except.map, add_assoc]

lemma not_leavesMatches (sure : Undisturbed (p.joiners.map (·.joinType))) :
    ¬p.LeavesMatches r := by
  rintro ⟨lists, added, run, n, ⟨j, there, reads⟩, left⟩
  rw [alone] at run
  split at run
  case isFalse =>
    cases run
    exact left rfl
  rename_i admitted
  have admitted : ∀ j ∈ p.joiners, p.admits j r := by simpa [admitsAll] using admitted
  obtain ⟨unread, rest, joiners, overwriting, after⟩ : ∃ unread rest, p.joiners = unread ++ rest ∧
      (∀ j ∈ unread, overwrites j.joinType) ∧ ∀ j ∈ rest.tail, mayReject j.joinType = false := by
    refine ⟨_, _, (takeWhile_append_dropWhile (p := fun j => overwrites j.joinType)).symm,
      fun j member => all_eq_true.mp all_takeWhile j member, fun j member => sure _ ?_⟩
    rw [dropWhile_map, ← map_tail]
    exact mem_map_of_mem member
  obtain ⟨lists', added', same, append⟩ := collectAll_append (r := r) unread 0 (fun _ => [])
    fun m j there => ⟨_, _, collect_overwrites (overwriting j (mem_of_getElem? there)) ..⟩
  have beyond : unread.length ≤ n := by
    by_contra inside
    rw [joiners, getElem?_append_left (by omega)] at there
    rw [overwriting j (mem_of_getElem? there)] at reads
    cases reads
  rw [joiners] at run admitted
  rw [append] at run
  cases rest with
  | nil => cases run
  | cons j' rest =>
    cases inner : p.collectAll r (j' :: rest) (0 + unread.length) lists' with
    | error e => rw [inner] at run; cases run
    | ok out =>
      rw [inner] at run
      obtain ⟨out, count, kept⟩ := out
      cases run
      obtain ⟨list, first, rfl, -⟩ | ⟨list, count, others, -, inner⟩ := collectAll_cons inner
      · -- the first joiner that reads its list leaves nothing in it
        rw [(collect_ok first).mpr rfl] at left
        refine left ?_
        dsimp only
        rw [update_apply]
        split
        exacts [rfl, same n (by omega)]
      · have kept := collectAll_kept (fun m j' later list' =>
          collect_ne_none (admitted j' (by
            exact mem_append_right _ (mem_cons_of_mem _ (mem_of_getElem? later))))
            (after j' (mem_of_getElem? later)) _ list') inner
        cases kept

end Processor

/-- For all small sides, filters, large rows and limits, the match lists of a batch are those of its
rows alone. -/
def AlwaysOwn (types : List JoinType) : Prop :=
  ∀ (R K V W : Type) [DecidableEq K] (p : Processor R K), p.joiners.map (·.joinType) = types →
    ∀ (limit : Option Nat) (batch : List R) (b : Buffers R V W), b.Holds batch → p.Own limit batch b

/-- A small side with one row of key 0, which both rows have. -/
def sharedKeys : TypedKeys Bool where
  isNullValue _ := false
  largeKey _ := 0
  tJoiner bucket := if bucket = 0 then [(0, 0)] else []
  doMatchNulls := false
  joinNullValue := bigintNull

/-- An inner join with a filter. -/
def sharing (filtered : Bool) (filter : Bool → Nat → Bool) : Joiner Bool Unit :=
  ⟨⟨false, false, false, false, false, filtered⟩, .typed sharedKeys, filter⟩

/-- Two buckets. -/
def pairing (joiners : List (Joiner Bool Unit)) : Processor Bool Unit where
  processorThreads := 2
  ptMask := 1
  bucketPicker := BitVec.toNat
  joiners := joiners
  mJOINHasSkewedKeyColumn := false

/-- The rows `true` and `false`, nothing else in the buffers. -/
def twoRows : Buffers Bool Unit Unit :=
  ⟨fun i => i == 0, fun _ => (), fun _ => (), id, fun _ _ => []⟩

end TupleJoin
