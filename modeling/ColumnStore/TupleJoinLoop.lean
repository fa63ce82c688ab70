import ColumnStore.TupleJoin

/-!
# The calls of the join for one block

`BatchPrimitiveProcessor::execute` calls `executeTupleJoin` until it returns 0 and sends the output
of every call. A call that reaches the limit on the matches returns the start of the call plus the
number of rows that it has kept, and the next call reads the row group from its first row again.
The statements are about blocks without rows that are turned down by a joiner after the first one.
-/

namespace TupleJoin

open List Nat Except

namespace Processor

variable {R K V W : Type} [DecidableEq K] (p : Processor R K)

/-- The match lists of the output rows are cleared when they have been sent. -/
def clear (s : Progress R V W) : Buffers R V W :=
  { s.toBuffers with
    tSmallSideMatches := fun j k => if k < s.newRowCount then [] else s.tSmallSideMatches j k }

/-- The output of the calls from a start on, none if the number of calls is not enough. -/
def joinLoop (limit : Option Nat) (origRidCount : Nat) : Nat → Nat → Buffers R V W →
    Except ScalarException (Option (List (Output R V W)))
  | 0, _, _ => .ok none
  | fuel + 1, startRid, b =>
    match p.executeTupleJoin limit origRidCount startRid b with
    | .error e => .error e
    | .ok (s, next) =>
      if 0 < next then (joinLoop limit origRidCount fuel next (clear s)).map fun later =>
        later.map (p.outputs s ++ ·)
      else .ok (some (p.outputs s))

/-- The row is in the result. -/
def keeps (r : R) : Bool :=
  match p.alone r with
  | .error _ => false
  | .ok (_, _, kept) => kept

/-- The scalar check fails for the row. -/
def fails (r : R) : Bool :=
  match p.alone r with
  | .error _ => true
  | .ok _ => false

def ownLists (r : R) : List (List Nat) :=
  match p.alone r with
  | .error _ => []
  | .ok (lists, _, _) => (List.range p.joiners.length).map lists

/-- What the result count grows by for the row. -/
def ownCount (r : R) : Nat :=
  match p.alone r with
  | .error _ => 0
  | .ok (_, added, _) => added

def ownOutput (b : Buffers R V W) (i : Nat) : Output R V W :=
  ⟨b.outputRG i, b.values i, b.wide128Values i, b.relRids i, p.ownLists (b.outputRG i)⟩

/-- The rows in the result, in order and with their own values. -/
def qualifying (b : Buffers R V W) (rows : Nat) : List (Output R V W) :=
  ((List.range rows).filter fun i => p.keeps (b.outputRG i)).map (p.ownOutput b)

/-- The result count after the first rows. -/
def total (b : Buffers R V W) : Nat → Nat
  | 0 => 0
  | rows + 1 => total b rows + p.ownCount (b.outputRG rows)

def expected (b : Buffers R V W) (rows : Nat) : Except ScalarException (List (Output R V W)) :=
  if (List.range rows).any fun i => p.fails (b.outputRG i) then .error .scalar
  else .ok (p.qualifying b rows)

/-- The loop ends, and both its output and that of a call without a limit are the rows in the
result. -/
def Complete (limit : Option Nat) (rows : Nat) (b : Buffers R V W) : Prop :=
  (∃ fuel, p.joinLoop limit rows fuel 0 b = (p.expected b rows).map some) ∧
    (p.executeTupleJoin none rows 0 b).map (fun out => p.outputs out.1) = p.expected b rows

/-- The output of a call that starts with row `start` after some rows. The row group is read from
its first row on; without a skewed key column the wide values are not moved. -/
def keptRows (b : Buffers R V W) (start : Nat) : Nat → List (Output R V W)
  | 0 => []
  | rows + 1 =>
    let before := keptRows b start rows
    before ++
      if p.keeps (b.outputRG rows) then
        [⟨b.outputRG rows, b.values (start + rows),
          b.wide128Values (if p.mJOINHasSkewedKeyColumn then start + rows else before.length),
          b.relRids (start + rows), p.ownLists (b.outputRG rows)⟩]
      else []

/-- The progress of a call after some rows. -/
structure Ran (b : Buffers R V W) (start rows : Nat) (s : Progress R V W) : Prop where
  fresh : ∀ j, Fresh s j
  outputs : p.outputs s = p.keptRows b start rows
  resultCount : s.resultCount = p.total b rows
  outputRG : ∀ k, s.newRowCount ≤ k → s.outputRG k = b.outputRG k
  values : ∀ k, s.newRowCount ≤ k → s.values k = b.values k
  wide128Values : ∀ k, (p.mJOINHasSkewedKeyColumn = true → s.newRowCount ≤ k) →
    s.wide128Values k = b.wide128Values k
  relRids : ∀ k, s.newRowCount ≤ k → s.relRids k = b.relRids k

/-- The row is turned down neither with an exception nor by a joiner after the first one. -/
def Settled (r : R) : Prop := p.fails r = false ∧ ¬p.RejectedLate r

variable {p}

variable {b : Buffers R V W}

lemma keptRows_length_le (b : Buffers R V W) (start rows : Nat) :
    (p.keptRows b start rows).length ≤ rows := by
  induction rows with
  | zero => exact le_refl 0
  | succ rows ih =>
    rw [keptRows]
    split <;> simp <;> omega

variable {start rows : Nat} {s : Progress R V W}

lemma Ran.newRowCount (ran : p.Ran b start rows s) :
    s.newRowCount = (p.keptRows b start rows).length := by
  have length := congrArg length ran.outputs
  rwa [Processor.outputs, length_map, length_range] at length

lemma Ran.next (ran : p.Ran b start rows s) (settled : p.Settled (b.outputRG rows)) :
    ∃ s', p.joinRow (start + rows) rows s = .ok s' ∧ p.Ran b start (rows + 1) s' := by
  have front : s.newRowCount ≤ rows := ran.newRowCount ▸ keptRows_length_le b start rows
  have row : s.outputRG rows = b.outputRG rows := ran.outputRG rows front
  rw [joinRow_fresh ran.fresh, row]
  obtain ⟨runs, early⟩ := settled
  cases own : p.alone (b.outputRG rows) with
  | error e => simp [fails, own] at runs
  | ok out =>
    obtain ⟨lists, added, kept⟩ := out
    have count : p.ownCount (b.outputRG rows) = added := by simp only [ownCount, own]
    have keeps : p.keeps (b.outputRG rows) = kept := by simp only [keeps, own]
    cases kept with
    | false =>
      obtain ⟨rfl, rfl⟩ := alone_rejected own early
      refine ⟨s, ?_, ran.fresh, ?_, ?_, ran.outputRG, ran.values, ran.wide128Values, ran.relRids⟩
      · simp [Except.map, store_empty ran.fresh]
      · simp [keptRows, keeps, ran.outputs]
      · rw [total, count, ran.resultCount]
        rfl
    | true =>
      have step : Kept p p.mJOINHasSkewedKeyColumn (start + rows) (b.outputRG rows) lists added s
          ((s.store lists added).copyRow p.mJOINHasSkewedKeyColumn (start + rows)
            (b.outputRG rows)) :=
        kept_copyRow (fun stays => by
          rw [show s.newRowCount = rows by omega, row]) lists added
      simp only [Except.map]
      generalize (s.store lists added).copyRow p.mJOINHasSkewedKeyColumn (start + rows)
        (b.outputRG rows) = s' at step
      have wide : s.wide128Values (if p.mJOINHasSkewedKeyColumn then start + rows
          else s.newRowCount) = b.wide128Values (if p.mJOINHasSkewedKeyColumn then start + rows
          else (p.keptRows b start rows).length) := by
        rw [← ran.newRowCount]
        refine ran.wide128Values _ fun skewed => ?_
        rw [if_pos skewed]
        omega
      have above : ∀ {k}, s'.newRowCount ≤ k → s.newRowCount < k := step.newRowCount ▸ id
      refine ⟨s', rfl, fun j => step.fresh j (ran.fresh j), ?_, ?_,
        fun k le => (step.outputRG k (above le)).trans (ran.outputRG k (above le).le),
        fun k le => (step.values k (above le)).trans (ran.values k (above le).le),
        fun k le => (step.wide128Values k fun skewed => above (le skewed)).trans
          (ran.wide128Values k fun skewed => (above (le skewed)).le),
        fun k le => (step.relRids k (above le)).trans (ran.relRids k (above le).le)⟩
      · have ownLists : p.ownLists (b.outputRG rows) =
            (range p.joiners.length).map lists := by simp only [ownLists, own]
        rw [step.outputs, ran.outputs, ran.values _ (by omega), ran.relRids _ (by omega), wide,
          keptRows, if_pos keeps, ownLists]
      · rw [step.resultCount, ran.resultCount, total, count]

variable {limit : Option Nat}

lemma joinRows_prefix (empty : ∀ j k, b.tSmallSideMatches j k = []) (start : Nat)
    (settled : ∀ x < rows, p.Settled (b.outputRG x))
    (unreached : ∀ x, 0 < x → x ≤ rows → reached limit (p.total b x) = false) :
    ∃ s, p.Ran b start rows s ∧ ∀ rest, p.joinRows limit (rows + rest) start 0 ⟨b, 0, 0⟩ =
      p.joinRows limit rest (start + rows) rows s := by
  induction rows with
  | zero =>
    have ran : p.Ran b start 0 ⟨b, 0, 0⟩ := ⟨fun j k _ => empty j k, rfl, rfl, fun _ _ => rfl,
      fun _ _ => rfl, fun _ _ => rfl, fun _ _ => rfl⟩
    exact ⟨⟨b, 0, 0⟩, ran, fun rest => by rw [zero_add]; rfl⟩
  | succ rows ih =>
    obtain ⟨s, ran, same⟩ := ih (fun x below => settled x (by omega))
      (fun x positive below => unreached x positive (by omega))
    obtain ⟨s', step, ran'⟩ := ran.next (settled rows (by omega))
    refine ⟨s', ran', fun rest => ?_⟩
    rw [show rows + 1 + rest = rows + (rest + 1) by omega, same, joinRows, step]
    simp [ran'.resultCount, unreached (rows + 1) (by omega) (by omega), add_assoc]

variable {origRidCount : Nat}

lemma call_through (limit : Option Nat) (empty : ∀ j k, b.tSmallSideMatches j k = [])
    (all : origRidCount - start = rows) (settled : ∀ x < rows, p.Settled (b.outputRG x))
    (unreached : ∀ x, 0 < x → x ≤ rows → reached limit (p.total b x) = false) :
    ∃ s, p.Ran b start rows s ∧ p.executeTupleJoin limit origRidCount start b =
      .ok (s, if reached limit (p.total b rows) then start + s.newRowCount else 0) := by
  obtain ⟨s, ran, same⟩ := joinRows_prefix empty start settled unreached
  refine ⟨s, ran, ?_⟩
  have run := same 0
  rw [add_zero] at run
  rw [executeTupleJoin, all, run, ← ran.resultCount]
  rfl

lemma call_cut (empty : ∀ j k, b.tSmallSideMatches j k = []) (start : Nat)
    (inside : rows < origRidCount - start) (settled : ∀ x ≤ rows, p.Settled (b.outputRG x))
    (unreached : ∀ x, 0 < x → x ≤ rows → reached limit (p.total b x) = false)
    (full : reached limit (p.total b (rows + 1))) :
    ∃ s, p.Ran b start (rows + 1) s ∧
      p.executeTupleJoin limit origRidCount start b = .ok (s, start + s.newRowCount) := by
  obtain ⟨s, ran, same⟩ :=
    joinRows_prefix empty start (fun x below => settled x (le_of_lt below)) unreached
  obtain ⟨s', step, ran'⟩ := ran.next (settled rows (le_refl rows))
  refine ⟨s', ran', ?_⟩
  rw [← ran'.resultCount] at full
  rw [executeTupleJoin, show origRidCount - start = rows + (origRidCount - start - rows - 1 + 1) by
    omega, same, joinRows, step]
  simp [full, Except.map]

lemma call_fails (empty : ∀ j k, b.tSmallSideMatches j k = [])
    (inside : rows < origRidCount - start) (settled : ∀ x < rows, p.Settled (b.outputRG x))
    (unreached : ∀ x, 0 < x → x ≤ rows → reached limit (p.total b x) = false)
    (fails : p.fails (b.outputRG rows)) :
    p.executeTupleJoin limit origRidCount start b = .error .scalar := by
  obtain ⟨s, ran, same⟩ := joinRows_prefix empty start settled unreached
  have row : s.outputRG rows = b.outputRG rows :=
    ran.outputRG rows (ran.newRowCount ▸ keptRows_length_le b start rows)
  rw [executeTupleJoin, show origRidCount - start = rows + (origRidCount - start - rows - 1 + 1) by
    omega, same, joinRows, joinRow_fresh ran.fresh, row]
  cases own : p.alone (b.outputRG rows) with
  | error e => rfl
  | ok out => simp [Processor.fails, own] at fails

lemma settled_of_keeps {r : R} (kept : p.keeps r) : p.Settled r := by
  rw [keeps] at kept
  cases own : p.alone r with
  | error e => simp [own] at kept
  | ok out =>
    refine ⟨by simp only [fails, own], ?_⟩
    rintro ⟨lists, added, rejected, -⟩
    rw [rejected] at kept
    cases kept

lemma ownCount_of_not_keeps {r : R} (settled : ¬p.RejectedLate r) (unkept : p.keeps r = false) :
    p.ownCount r = 0 := by
  rw [ownCount]
  rw [keeps] at unkept
  cases own : p.alone r with
  | error e => rfl
  | ok out =>
    obtain ⟨lists, added, kept⟩ := out
    simp only [own] at unkept
    subst unkept
    exact (alone_rejected own settled).2

variable {x y : Nat}

lemma total_mono (b : Buffers R V W) (le : x ≤ y) : p.total b x ≤ p.total b y := by
  induction le with
  | refl => exact le_refl _
  | step _ ih => exact ih.trans (le_add_right _ _)

lemma reached_mono (le : x ≤ y) (full : reached limit x) : reached limit y := by
  cases limit with
  | none => exact full
  | some bound =>
    simp only [reached, Option.any_some, decide_eq_true_eq] at full ⊢
    omega

variable {b' : Buffers R V W}

lemma total_congr (same : ∀ k < rows, b.outputRG k = b'.outputRG k) :
    p.total b rows = p.total b' rows := by
  induction rows with
  | zero => rfl
  | succ rows ih =>
    rw [total, total, ih fun k below => same k (by omega), same rows (by omega)]

/-- The result count of output rows. -/
def counts (p : Processor R K) (rows : List (Output R V W)) : Nat :=
  (rows.map fun o => p.ownCount o.row).sum

lemma counts_keptRows (b : Buffers R V W) (start : Nat)
    (settled : ∀ x < rows, ¬p.RejectedLate (b.outputRG x)) :
    counts p (p.keptRows b start rows) = p.total b rows := by
  induction rows with
  | zero => rfl
  | succ rows ih =>
    have before := ih fun x below => settled x (by omega)
    rw [counts] at before
    rw [counts, keptRows, total, map_append, sum_append_nat, before]
    cases kept : p.keeps (b.outputRG rows) with
    | true => simp
    | false => simp [ownCount_of_not_keeps (settled rows (by omega)) kept]

lemma keptRows_all (b : Buffers R V W) (start : Nat) (kept : ∀ k < rows, p.keeps (b.outputRG k)) :
    p.keptRows b start rows = (range rows).map fun d =>
      ⟨b.outputRG d, b.values (start + d),
        b.wide128Values (if p.mJOINHasSkewedKeyColumn then start + d else d),
        b.relRids (start + d), p.ownLists (b.outputRG d)⟩ := by
  induction rows with
  | zero => rfl
  | succ rows ih =>
    rw [keptRows, ih fun k below => kept k (by omega), if_pos (kept rows (by omega)),
      range_succ, map_append, length_map, length_range]
    rfl

/-- The first rows of the row group are in the result, and the limit is reached with them. -/
structure Cycle (p : Processor R K) (limit : Option Nat) (n : Nat) (b : Buffers R V W) :
    Prop where
  positive : 0 < n
  keeps : ∀ k < n, p.keeps (b.outputRG k) = true
  unreached : ∀ x < n, reached limit (p.total b x) = false
  full : reached limit (p.total b n) = true
  empty : ∀ j k, b.tSmallSideMatches j k = []

/-- The output row for row `start + d`: the values are its own, the columns projected before the
join are those of one of the first rows. -/
def repeated (p : Processor R K) (b : Buffers R V W) (n start d : Nat) : Output R V W :=
  ⟨b.outputRG (d % n), b.values (start + d),
    b.wide128Values (if p.mJOINHasSkewedKeyColumn then start + d else d % n),
    b.relRids (start + d), p.ownLists (b.outputRG (d % n))⟩

variable {n : Nat}

lemma Cycle.keptRows (cycle : Cycle p limit n b) (start : Nat) (le : rows ≤ n) :
    p.keptRows b start rows = (range rows).map (p.repeated b n start) := by
  rw [keptRows_all b start fun k below => cycle.keeps k (by omega)]
  refine map_congr_left fun d member => ?_
  have below := mem_range.mp member
  rw [repeated, mod_eq_of_lt (by omega)]

/-- The buffers after a call that was cut short. -/
structure Again (p : Processor R K) (n : Nat) (b b' : Buffers R V W) : Prop where
  outputRG : b'.outputRG = b.outputRG
  values : ∀ k, n ≤ k → b'.values k = b.values k
  wide128Values : ∀ k, (p.mJOINHasSkewedKeyColumn = true → n ≤ k) →
    b'.wide128Values k = b.wide128Values k
  relRids : ∀ k, n ≤ k → b'.relRids k = b.relRids k
  empty : ∀ j k, b'.tSmallSideMatches j k = []

lemma Ran.clear_empty (ran : p.Ran b start rows s) (j k : Nat) :
    (clear s).tSmallSideMatches j k = [] := by
  by_cases below : k < s.newRowCount
  · simp only [clear, if_pos below]
  · simp only [clear, if_neg below]
    exact ran.fresh j k (by omega)

lemma Ran.front (ran : p.Ran b start rows s) {k : Nat} (below : k < s.newRowCount) :
    (p.keptRows b start rows)[k]? = some (p.output s.toBuffers k) := by
  rw [← ran.outputs, Processor.outputs, getElem?_map, getElem?_range below]
  rfl

lemma Cycle.again (cycle : Cycle p limit n b) (ran : p.Ran b start n s) :
    s.newRowCount = n ∧ Again p n b (clear s) := by
  have length : s.newRowCount = n := by
    rw [ran.newRowCount, cycle.keptRows start (le_refl n), length_map, length_range]
  refine ⟨length, ⟨funext fun k => ?_, ?_, ?_, ?_, ran.clear_empty⟩⟩
  · by_cases below : k < s.newRowCount
    · have front := ran.front below
      rw [cycle.keptRows start (le_refl n), getElem?_map,
        getElem?_range (length ▸ below), Option.map_some, Option.some.injEq] at front
      have row := congrArg Output.row front
      rw [repeated, mod_eq_of_lt (length ▸ below)] at row
      exact row.symm
    · exact ran.outputRG k (by omega)
  · exact fun k above => ran.values k (by omega)
  · exact fun k above => ran.wide128Values k fun skewed => length ▸ above skewed
  · exact fun k above => ran.relRids k (by omega)

lemma Again.cycle (again : Again p n b b') (cycle : Cycle p limit n b) : Cycle p limit n b' := by
  have totals : ∀ x, p.total b' x = p.total b x := fun x =>
    total_congr fun k _ => by rw [again.outputRG]
  refine ⟨cycle.positive, ?_, ?_, ?_, again.empty⟩
  · intro k below
    rw [again.outputRG]
    exact cycle.keeps k below
  · intro x below
    rw [totals]
    exact cycle.unreached x below
  · rw [totals]
    exact cycle.full

lemma Again.repeated (again : Again p n b b') (after : n ≤ start) (d : Nat) :
    p.repeated b' n start d = p.repeated b n start d := by
  rw [Processor.repeated, Processor.repeated, again.outputRG, again.values _ (by omega),
    again.relRids _ (by omega), again.wide128Values]
  intro skewed
  rw [if_pos skewed]
  omega

lemma repeated_add (b : Buffers R V W) (n start d : Nat) :
    p.repeated b n (start + n) d = p.repeated b n start (n + d) := by
  rw [repeated, repeated, add_mod_left, add_assoc]

/-- All rows from the start on are sent, with the first rows over and over. -/
lemma joinLoop_cycle (cycle : Cycle p limit n b) (origRidCount : Nat) (after : n ≤ start) :
    ∃ fuel, p.joinLoop limit origRidCount fuel start b =
      .ok (some ((range (origRidCount - start)).map (p.repeated b n start))) := by
  induction left : origRidCount - start using Nat.strongRecOn generalizing b start with
  | ind rest ih =>
    have settled : ∀ x < n, p.Settled (b.outputRG x) := fun x below =>
      settled_of_keeps (cycle.keeps x below)
    by_cases last : rest < n
    · obtain ⟨s, ran, call⟩ := call_through limit cycle.empty left
        (fun x below => settled x (by omega)) (fun x _ le => cycle.unreached x (by omega))
      refine ⟨1, ?_⟩
      rw [joinLoop, call, cycle.unreached rest last, if_neg Bool.false_ne_true]
      simp only [lt_irrefl, if_false]
      rw [ran.outputs, cycle.keptRows start (le_of_lt last)]
    have positive := cycle.positive
    have inside : n - 1 < origRidCount - start := by omega
    obtain ⟨s, ran, call⟩ := call_cut cycle.empty start inside
      (fun x le => settled x (by omega)) (fun x _ le => cycle.unreached x (by omega))
      (by rw [Nat.sub_add_cancel positive]; exact cycle.full)
    rw [Nat.sub_add_cancel positive] at ran
    obtain ⟨length, again⟩ := cycle.again ran
    have later : n ≤ start + n := by omega
    obtain ⟨fuel, run⟩ := ih (rest - n) (by omega) (again.cycle cycle) later (by omega)
    refine ⟨fuel + 1, ?_⟩
    rw [joinLoop, call, length]
    simp only [show 0 < start + n by omega, if_true, run, Except.map, Option.map_some]
    have shifted : p.repeated (clear s) n (start + n) = p.repeated b n start ∘ (n + ·) :=
      funext fun d => (again.repeated later d).trans (repeated_add b n start d)
    rw [ran.outputs, cycle.keptRows start (le_refl n), shifted, ← map_map,
      ← map_append, ← range_add, Nat.add_sub_cancel' (by omega)]

lemma keptRows_keeps (b : Buffers R V W) (start rows : Nat) {o : Output R V W}
    (member : o ∈ p.keptRows b start rows) : p.keeps o.row := by
  induction rows with
  | zero => cases member
  | succ rows ih =>
    rw [keptRows, mem_append] at member
    obtain before | last := member
    · exact ih before
    split at last
    · rename_i kept
      rw [mem_singleton.mp last]
      exact kept
    · cases last

lemma counts_take_le (rows : List (Output R V W)) (y : Nat) :
    counts p (rows.take y) ≤ counts p rows := by
  have parts : counts p rows = counts p (rows.take y) + counts p (rows.drop y) := by
    rw [counts, counts, counts, ← sum_append_nat, ← map_append, take_append_drop]
  omega

lemma total_front {rows : List (Output R V W)}
    (front : ∀ k < y, rows[k]?.map Output.row = some (b.outputRG k)) :
    p.total b y = counts p (rows.take y) := by
  induction y with
  | zero => rfl
  | succ y ih =>
    have last := front y (by omega)
    obtain ⟨o, there, row⟩ := Option.map_eq_some_iff.mp last
    rw [total, ih fun k below => front k (by omega), take_add_one, there, counts, counts]
    simp [row]

lemma joinLoop_cut (empty : ∀ j k, b.tSmallSideMatches j k = []) (inside : x < origRidCount)
    (settled : ∀ y ≤ x, p.Settled (b.outputRG y))
    (unreached : ∀ y ≤ x, reached limit (p.total b y) = false)
    (full : reached limit (p.total b (x + 1))) :
    ∃ s, p.Ran b 0 (x + 1) s ∧ 0 < s.newRowCount ∧
      ∃ fuel, p.joinLoop limit origRidCount fuel 0 b =
        .ok (some (p.keptRows b 0 (x + 1) ++ (range (origRidCount - s.newRowCount)).map
          (p.repeated (clear s) s.newRowCount s.newRowCount))) := by
  obtain ⟨s, ran, call⟩ := call_cut empty 0 inside settled (fun y _ le => unreached y le) full
  have late : ∀ y < x + 1, ¬p.RejectedLate (b.outputRG y) := fun y below =>
    (settled y (by omega)).2
  have kept : p.keeps (b.outputRG x) := by
    by_contra unkept
    have nothing : p.ownCount (b.outputRG x) = 0 :=
      ownCount_of_not_keeps (late x (by omega)) (by simpa using unkept)
    rw [total, nothing, add_zero, unreached x (le_refl x)] at full
    cases full
  obtain ⟨o, rows⟩ : ∃ o, p.keptRows b 0 (x + 1) = p.keptRows b 0 x ++ [o] :=
    ⟨_, by rw [keptRows, if_pos kept]⟩
  have length : s.newRowCount = (p.keptRows b 0 x).length + 1 := by
    rw [ran.newRowCount, rows, length_append]
    rfl
  have front : ∀ k < s.newRowCount,
      (p.keptRows b 0 (x + 1))[k]?.map Output.row = some ((clear s).outputRG k) := fun k below => by
    rw [ran.front below]
    rfl
  have cycle : Cycle p limit s.newRowCount (clear s) := by
    refine ⟨by omega, ?_, ?_, ?_, ran.clear_empty⟩
    · intro k below
      obtain ⟨o, there, row⟩ := Option.map_eq_some_iff.mp (front k below)
      rw [← row]
      exact keptRows_keeps b 0 (x + 1) (mem_of_getElem? there)
    · intro y below
      rw [total_front fun k less => front k (by omega), rows,
        take_append_of_le_length (by omega)]
      by_contra hit
      have hit := reached_mono (counts_take_le _ y) (by simpa using hit)
      rw [counts_keptRows b 0 fun y below => late y (by omega), unreached x (le_refl x)] at hit
      cases hit
    · rw [total_front front, ran.newRowCount, take_length, counts_keptRows b 0 late]
      exact full
  obtain ⟨fuel, run⟩ := joinLoop_cycle cycle origRidCount (le_refl _)
  refine ⟨s, ran, cycle.positive, fuel + 1, ?_⟩
  rw [joinLoop, call]
  simp [cycle.positive, run, Except.map, ran.outputs]

variable {fuel : Nat}

lemma joinLoop_add (ended : p.joinLoop limit origRidCount fuel start b ≠ .ok none) (more : Nat) :
    p.joinLoop limit origRidCount (fuel + more) start b =
      p.joinLoop limit origRidCount fuel start b := by
  induction fuel generalizing start b with
  | zero => exact absurd rfl ended
  | succ fuel ih =>
    rw [add_right_comm, joinLoop, joinLoop]
    rw [joinLoop] at ended
    split
    · rfl
    rename_i s next call
    simp only [call] at ended
    split
    · rename_i positive
      rw [if_pos positive] at ended
      rw [ih fun same => ended (by rw [same]; rfl)]
    · rfl

lemma joinLoop_unique {fuel' : Nat} {out out' : Except ScalarException (List (Output R V W))}
    (run : p.joinLoop limit origRidCount fuel start b = out.map some)
    (run' : p.joinLoop limit origRidCount fuel' start b = out'.map some) : out = out' := by
  have ended : ∀ out : Except ScalarException (List (Output R V W)), out.map some ≠ .ok none := by
    cases out <;> nofun
  have same := joinLoop_add (run ▸ ended out) fuel'
  rw [add_comm, joinLoop_add (run' ▸ ended out')] at same
  cases out <;> cases out' <;> simp_all [Except.map]

lemma Ran.first (ran : p.Ran b start 1 s) (kept : p.keeps (b.outputRG 0)) :
    s.newRowCount = 1 ∧ s.outputRG 0 = b.outputRG 0 := by
  have one : p.keptRows b start 1 = _ :=
    keptRows_all b start fun k below => by rwa [lt_one_iff.mp below]
  have length : s.newRowCount = 1 := by rw [ran.newRowCount, one]; rfl
  have front := ran.front (k := 0) (by omega)
  rw [one] at front
  exact ⟨length, (congrArg Output.row (Option.some.inj front)).symm⟩

/-- With a limit of 0 a call that keeps a row is followed by calls without end. -/
lemma joinLoop_endless (always : reached limit 0) (origRidCount fuel : Nat)
    (empty : ∀ j k, b.tSmallSideMatches j k = []) (kept : p.keeps (b.outputRG 0))
    (started : 0 < start ∨ 0 < origRidCount) :
    p.joinLoop limit origRidCount fuel start b = .ok none := by
  induction fuel generalizing start b with
  | zero => rfl
  | succ fuel ih =>
    obtain ⟨s, next, call, positive, empty', row⟩ : ∃ s next,
        p.executeTupleJoin limit origRidCount start b = .ok (s, next) ∧ 0 < next ∧
        (∀ j k, (clear s).tSmallSideMatches j k = []) ∧ s.outputRG 0 = b.outputRG 0 := by
      by_cases inside : 0 < origRidCount - start
      · obtain ⟨s, ran, call⟩ := call_cut empty start inside
          (fun x le => by rw [le_zero.mp le]; exact settled_of_keeps kept)
          (fun x positive le => by omega) (reached_mono (zero_le _) always)
        obtain ⟨one, row⟩ := ran.first kept
        exact ⟨s, _, call, by omega, ran.clear_empty, row⟩
      have done : origRidCount - start = 0 := by omega
      obtain ⟨s, ran, call⟩ := call_through (p := p) limit empty done nofun
        (fun x positive le => by omega)
      refine ⟨s, _, call, ?_, ran.clear_empty, ?_⟩
      · rw [total, always, if_pos rfl]
        omega
      · exact ran.outputRG 0 (by rw [ran.newRowCount]; exact le_refl 0)
    rw [joinLoop, call]
    simp only [positive]
    rw [ih empty' (by rw [show (clear s).outputRG 0 = s.outputRG 0 from rfl, row]; exact kept)
      (.inl positive)]
    rfl

/-- The number of rows in the result before row `i`. -/
def rank (p : Processor R K) (b : Buffers R V W) (i : Nat) : Nat :=
  ((List.range i).filter fun k => p.keeps (b.outputRG k)).length

/-- The wide values are right although they are not moved. -/
def InPlace (p : Processor R K) (rows : Nat) (b : Buffers R V W) : Prop :=
  p.mJOINHasSkewedKeyColumn = false → ∀ i < rows, p.keeps (b.outputRG i) = true →
    b.wide128Values (p.rank b i) = b.wide128Values i

/-- From row `n` on the rows are the first `n` rows over and over. -/
def Repeats (p : Processor R K) (n rows : Nat) (b : Buffers R V W) : Prop :=
  ∀ i, n ≤ i → i < rows → b.outputRG (i % n) = b.outputRG i ∧
    (p.mJOINHasSkewedKeyColumn = false → b.wide128Values (i % n) = b.wide128Values i)

/-- The blocks for which the loop is right: the scalar check fails before the limit is reached; the
limit is not reached; no row is in the result; or all of them are and those after the limit repeat
the first ones. -/
def InTime (p : Processor R K) (limit : Option Nat) (rows : Nat) (b : Buffers R V W) : Prop :=
  (∃ t < rows, p.fails (b.outputRG t) = true ∧ (t = 0 ∨ reached limit (p.total b t) = false)) ∨
  (reached limit (p.total b rows) = false ∧ p.InPlace rows b) ∨
  (∀ i < rows, p.keeps (b.outputRG i) = false ∧ p.fails (b.outputRG i) = false) ∨
  ∃ n, 0 < n ∧ n ≤ rows ∧ (∀ x < n, reached limit (p.total b x) = false) ∧
    reached limit (p.total b n) = true ∧ (∀ i < rows, p.keeps (b.outputRG i) = true) ∧
    p.Repeats n rows b

lemma qualifying_succ (b : Buffers R V W) (rows : Nat) :
    p.qualifying b (rows + 1) = p.qualifying b rows ++
      if p.keeps (b.outputRG rows) then [p.ownOutput b rows] else [] := by
  rw [qualifying, range_succ]
  cases kept : p.keeps (b.outputRG rows) <;> simp [qualifying, kept]

lemma length_qualifying (b : Buffers R V W) (rows : Nat) :
    (p.qualifying b rows).length = p.rank b rows := by
  rw [qualifying, length_map, rank]

lemma length_keptRows (b : Buffers R V W) (start rows : Nat) :
    (p.keptRows b start rows).length = p.rank b rows := by
  rw [← length_qualifying]
  induction rows with
  | zero => rfl
  | succ rows ih =>
    rw [keptRows, qualifying_succ, length_append, length_append, ih]
    cases p.keeps (b.outputRG rows) <;> rfl

lemma keptRows_eq_iff (b : Buffers R V W) (rows : Nat) :
    p.keptRows b 0 rows = p.qualifying b rows ↔ p.InPlace rows b := by
  induction rows with
  | zero => exact ⟨fun _ _ i below => absurd below (not_lt_zero i), fun _ => rfl⟩
  | succ rows ih =>
    have lengths : (p.keptRows b 0 rows).length = (p.qualifying b rows).length := by
      rw [length_keptRows, length_qualifying]
    have split : p.InPlace (rows + 1) b ↔ p.InPlace rows b ∧
        (p.mJOINHasSkewedKeyColumn = false → p.keeps (b.outputRG rows) →
          b.wide128Values (p.rank b rows) = b.wide128Values rows) := by
      rw [InPlace, forall_lt_succ_right, imp_and]
      rfl
    have last : (if p.keeps (b.outputRG rows) then
          [(⟨b.outputRG rows, b.values (0 + rows),
            b.wide128Values (if p.mJOINHasSkewedKeyColumn then 0 + rows
              else (p.keptRows b 0 rows).length),
            b.relRids (0 + rows), p.ownLists (b.outputRG rows)⟩ : Output R V W)]
        else []) = (if p.keeps (b.outputRG rows) then [p.ownOutput b rows] else []) ↔
        (p.mJOINHasSkewedKeyColumn = false → p.keeps (b.outputRG rows) →
          b.wide128Values (p.rank b rows) = b.wide128Values rows) := by
      rw [length_keptRows]
      cases p.keeps (b.outputRG rows) <;> cases p.mJOINHasSkewedKeyColumn <;> simp [ownOutput]
    rw [split, ← ih, ← last, keptRows, qualifying_succ]
    constructor
    · exact fun same => append_inj same lengths
    · rintro ⟨before, same⟩
      rw [same, before]

lemma expected_eq_ok_iff {out : List (Output R V W)} :
    p.expected b rows = .ok out ↔
      (∀ i < rows, p.fails (b.outputRG i) = false) ∧ p.qualifying b rows = out := by
  have fine : (range rows).any (fun i => p.fails (b.outputRG i)) = false ↔
      ∀ i < rows, p.fails (b.outputRG i) = false := by simp
  rw [expected, ← fine]
  cases (range rows).any fun i => p.fails (b.outputRG i) <;> simp

lemma expected_eq_error {t : Nat} (below : t < rows) (fails : p.fails (b.outputRG t)) :
    p.expected b rows = .error .scalar := by
  rw [expected, if_pos]
  exact any_eq_true.mpr ⟨t, mem_range.mpr below, fails⟩

lemma unlimited_call (empty : ∀ j k, b.tSmallSideMatches j k = [])
    (settled : ∀ x < rows, p.Settled (b.outputRG x)) :
    (p.executeTupleJoin none rows 0 b).map (fun out => p.outputs out.1) =
      .ok (p.keptRows b 0 rows) := by
  obtain ⟨s, ran, call⟩ := call_through none empty (Nat.sub_zero rows) settled fun _ _ _ => rfl
  rw [call, ← ran.outputs]
  rfl

lemma all_keep_of_length (length : (p.qualifying b rows).length = rows) (i : Nat)
    (below : i < rows) : p.keeps (b.outputRG i) := by
  rw [qualifying, length_map] at length
  have all : ((range rows).filter fun k => p.keeps (b.outputRG k)).length =
      (range rows).length := by rw [length, length_range]
  rw [length_filter_eq_length_iff] at all
  exact all i (mem_range.mpr below)

lemma qualifying_all (kept : ∀ i < rows, p.keeps (b.outputRG i)) :
    p.qualifying b rows = (range rows).map (p.ownOutput b) := by
  rw [qualifying, filter_eq_self.mpr]
  exact fun i member => kept i (mem_range.mp member)

lemma inPlace_of_all (kept : ∀ i < rows, p.keeps (b.outputRG i)) : p.InPlace rows b := by
  intro _ i below _
  rw [rank, filter_eq_self.mpr, length_range]
  intro k member
  exact kept k ((mem_range.mp member).trans below)

lemma repeated_eq_iff :
    (range rows).map (p.repeated b n 0) = (range rows).map (p.ownOutput b) ↔
      p.Repeats n rows b := by
  have one : ∀ i, p.repeated b n 0 i = p.ownOutput b i ↔ b.outputRG (i % n) = b.outputRG i ∧
      (p.mJOINHasSkewedKeyColumn = false → b.wide128Values (i % n) = b.wide128Values i) := by
    intro i
    rw [repeated, ownOutput]
    cases p.mJOINHasSkewedKeyColumn <;> simp <;> tauto
  rw [map_inj_left]
  constructor
  · exact fun same i _ below => (one i).mp (same i (mem_range.mpr below))
  intro repeats i member
  refine (one i).mpr ?_
  by_cases first : i < n
  · rw [mod_eq_of_lt first]
    exact ⟨rfl, fun _ => rfl⟩
  · exact repeats i (by omega) (mem_range.mp member)

section

variable (empty : ∀ j k, b.tSmallSideMatches j k = [])
include empty

/-- If the first call is cut short and all rows are in the result, then the rows after the cut come
with the columns of the first ones. -/
lemma joinLoop_all (positive : 0 < n)
    (le : n ≤ rows) (unreached : ∀ x < n, reached limit (p.total b x) = false)
    (full : reached limit (p.total b n)) (kept : ∀ i < rows, p.keeps (b.outputRG i)) :
    ∃ fuel, p.joinLoop limit rows fuel 0 b =
      .ok (some ((List.range rows).map (p.repeated b n 0))) := by
  have cycle : Cycle p limit n b :=
    ⟨positive, fun k below => kept k (by omega), unreached, full, empty⟩
  have inside : n - 1 < rows := by omega
  obtain ⟨s, ran, -, fuel, run⟩ := joinLoop_cut empty inside
    (fun y _ => settled_of_keeps (kept y (by omega))) (fun y _ => unreached y (by omega))
    (by rw [Nat.sub_add_cancel positive]; exact full)
  rw [Nat.sub_add_cancel positive] at ran run
  obtain ⟨length, again⟩ := cycle.again ran
  have shifted : p.repeated (clear s) n n = p.repeated b n 0 ∘ (n + ·) := funext fun d => by
    rw [again.repeated (le_refl n), Function.comp_apply, ← repeated_add, zero_add]
  refine ⟨fuel, ?_⟩
  rw [run, length, shifted, cycle.keptRows 0 (le_refl n), ← map_map, ← map_append,
    ← range_add, Nat.add_sub_cancel' le]

/-- The loop gives some output: it is right if this are the rows in the result. -/
lemma complete_iff_of_run (early : ∀ i < rows, ¬p.RejectedLate (b.outputRG i))
    {out : List (Output R V W)} (run : p.joinLoop limit rows fuel 0 b = .ok (some out)) :
    p.Complete limit rows b ↔ (∀ i < rows, p.fails (b.outputRG i) = false) ∧
      p.qualifying b rows = out ∧ p.InPlace rows b := by
  have run : p.joinLoop limit rows fuel 0 b = (ok out).map some := run
  constructor
  · rintro ⟨⟨fuel', run'⟩, single⟩
    have same := joinLoop_unique run' run
    obtain ⟨fine, outputs⟩ := expected_eq_ok_iff.mp same
    rw [same, unlimited_call empty fun x below => ⟨fine x below, early x below⟩,
      ok.injEq] at single
    exact ⟨fine, outputs, (keptRows_eq_iff b rows).mp (single.trans outputs.symm)⟩
  rintro ⟨fine, outputs, inPlace⟩
  have same : p.expected b rows = .ok out := expected_eq_ok_iff.mpr ⟨fine, outputs⟩
  refine ⟨⟨fuel, by rw [run, same]⟩, ?_⟩
  rw [same, unlimited_call empty fun x below => ⟨fine x below, early x below⟩,
    (keptRows_eq_iff b rows).mpr inPlace, outputs]

lemma complete_of_fails (below : x < rows) (settled : ∀ y < x, p.Settled (b.outputRG y))
    (unreached : ∀ y, 0 < y → y ≤ x → reached limit (p.total b y) = false)
    (fails : p.fails (b.outputRG x)) : p.Complete limit rows b := by
  have inside : x < rows - 0 := below
  refine ⟨⟨1, ?_⟩, ?_⟩
  · rw [joinLoop, call_fails empty inside settled unreached fails, expected_eq_error below fails]
    rfl
  · rw [call_fails empty inside settled (fun _ _ _ => rfl) fails, expected_eq_error below fails]
    rfl

lemma complete_iff_through (early : ∀ i < rows, ¬p.RejectedLate (b.outputRG i))
    (fine : ∀ i < rows, p.fails (b.outputRG i) = false)
    (unreached : ∀ x < rows, reached limit (p.total b (x + 1)) = false) :
    p.Complete limit rows b ↔ p.InTime limit rows b := by
  have through : ∀ x, 0 < x → x ≤ rows → reached limit (p.total b x) = false :=
    fun x positive le => by
      have before := unreached (x - 1) (by omega)
      rwa [Nat.sub_add_cancel positive] at before
  obtain ⟨s, ran, call⟩ := call_through limit empty (Nat.sub_zero rows)
    (fun x below => ⟨fine x below, early x below⟩) through
  have ends : (if reached limit (p.total b rows) then 0 + s.newRowCount else 0) = 0 := by
    obtain rfl | positive := Nat.eq_zero_or_pos rows
    · rw [ran.newRowCount]
      simp [keptRows]
    · rw [through rows positive (le_refl rows), if_neg Bool.false_ne_true]
  have run : p.joinLoop limit rows 1 0 b = .ok (some (p.keptRows b 0 rows)) := by
    rw [joinLoop, call, ends, ← ran.outputs]
    rfl
  rw [complete_iff_of_run empty early run]
  constructor
  · rintro ⟨-, -, inPlace⟩
    obtain rfl | positive := Nat.eq_zero_or_pos rows
    · exact .inr (.inr (.inl fun i below => absurd below (not_lt_zero i)))
    · exact .inr (.inl ⟨through rows positive (le_refl rows), inPlace⟩)
  intro inTime
  have inPlace : p.InPlace rows b := by
    obtain ⟨t, below, fails, -⟩ | ⟨-, inPlace⟩ | unkept | ⟨n, positive, le, -, full, -⟩ := inTime
    · rw [fine t below] at fails
      cases fails
    · exact inPlace
    · intro _ i below kept
      rw [(unkept i below).1] at kept
      cases kept
    · rw [through n positive le] at full
      cases full
  exact ⟨fine, ((keptRows_eq_iff b rows).mpr inPlace).symm, inPlace⟩

lemma complete_iff_cut (below : x < rows) (early : ∀ i < rows, ¬p.RejectedLate (b.outputRG i))
    (fine : ∀ y ≤ x, p.fails (b.outputRG y) = false)
    (unreached : ∀ y ≤ x, reached limit (p.total b y) = false)
    (full : reached limit (p.total b (x + 1))) :
    p.Complete limit rows b ↔ p.InTime limit rows b := by
  obtain ⟨s, ran, positive, fuel, run⟩ := joinLoop_cut empty below
    (fun y le => ⟨fine y le, early y (by omega)⟩) unreached full
  rw [complete_iff_of_run empty early run]
  have first : ∀ y < x + 1, reached limit (p.total b y) = false := fun y less =>
    unreached y (by omega)
  -- with all rows in the result the output is known
  have known : (∀ i < rows, p.keeps (b.outputRG i)) →
      p.keptRows b 0 (x + 1) ++ (range (rows - s.newRowCount)).map
          (p.repeated (clear s) s.newRowCount s.newRowCount) =
        (range rows).map (p.repeated b (x + 1) 0) := fun kept => by
    obtain ⟨fuel', run'⟩ := joinLoop_all empty (succ_pos x) below first full kept
    exact ok.inj (joinLoop_unique run run')
  constructor
  · rintro ⟨-, outputs, -⟩
    have front : s.newRowCount ≤ x + 1 := ran.newRowCount ▸ keptRows_length_le b 0 (x + 1)
    have kept : ∀ i < rows, p.keeps (b.outputRG i) := by
      refine all_keep_of_length ?_
      rw [outputs, length_append, ← ran.newRowCount, length_map, length_range]
      omega
    rw [known kept, qualifying_all kept] at outputs
    exact .inr (.inr (.inr ⟨x + 1, succ_pos x, below, first, full, kept,
      repeated_eq_iff.mp outputs.symm⟩))
  rintro (⟨t, inside, fails, soon⟩ | ⟨uncut, -⟩ | unkept | ⟨n, _, -, before, hit, kept, repeats⟩)
  · have later : x + 1 ≤ t := by
      by_contra earlier
      rw [fine t (by omega)] at fails
      cases fails
    obtain rfl | soon := soon
    · omega
    · rw [reached_mono (total_mono b later) full] at soon
      cases soon
  · rw [reached_mono (total_mono b below) full] at uncut
    cases uncut
  · have nothing : p.rank b (x + 1) = 0 := by
      rw [rank, filter_eq_nil_iff.mpr, length_nil]
      intro k member
      simp [(unkept k (by have := mem_range.mp member; omega)).1]
    rw [ran.newRowCount, length_keptRows, nothing] at positive
    cases positive
  have same : n = x + 1 := by
    by_contra other
    obtain less | greater := lt_or_gt_of_ne other
    · rw [first n less] at hit
      cases hit
    · rw [before (x + 1) greater] at full
      cases full
  subst same
  refine ⟨fun i inside => (settled_of_keeps (kept i inside)).1, ?_, inPlace_of_all kept⟩
  rw [known kept, qualifying_all kept]
  exact (repeated_eq_iff.mpr repeats).symm

/-- With a limit of 0 the first call is cut short with its first row. -/
lemma complete_iff_zero (nonempty : 0 < rows)
    (early : ∀ i < rows, ¬p.RejectedLate (b.outputRG i)) (fine : p.fails (b.outputRG 0) = false)
    (always : reached limit 0) : p.Complete limit rows b ↔ p.InTime limit rows b := by
  have reaches : ∀ count, reached limit count := fun count =>
    reached_mono (zero_le count) always
  have inTime : p.InTime limit rows b ↔
      ∀ i < rows, p.keeps (b.outputRG i) = false ∧ p.fails (b.outputRG i) = false := by
    constructor
    · rintro (⟨t, -, fails, rfl | soon⟩ | ⟨uncut, -⟩ | unkept | ⟨n, positive, -, before, -⟩)
      · rw [fine] at fails
        cases fails
      · rw [reaches] at soon
        cases soon
      · rw [reaches] at uncut
        cases uncut
      · exact unkept
      · have := before 0 positive
        rw [reaches] at this
        cases this
    · exact fun unkept => .inr (.inr (.inl unkept))
  rw [inTime]
  cases kept : p.keeps (b.outputRG 0) with
  | true =>
    constructor
    · rintro ⟨⟨fuel, run⟩, -⟩
      rw [joinLoop_endless always rows fuel empty kept (.inr nonempty)] at run
      cases expected : p.expected b rows <;> rw [expected] at run <;> cases run
    · intro unkept
      rw [(unkept 0 nonempty).1] at kept
      cases kept
  | false =>
    have inside : 0 < rows - 0 := nonempty
    obtain ⟨s, ran, call⟩ := call_cut empty 0 inside
      (fun y le => by rw [le_zero.mp le]; exact ⟨fine, early 0 nonempty⟩)
      (fun y positive le => by omega) (reaches _)
    have zero : s.newRowCount = 0 := by
      rw [ran.newRowCount, length_keptRows]
      simp [rank, kept]
    have run : p.joinLoop limit rows 1 0 b = .ok (some []) := by
      rw [joinLoop, call]
      simp [outputs, zero]
    rw [complete_iff_of_run empty early run]
    constructor
    · rintro ⟨fine, nothing, -⟩ i below
      refine ⟨?_, fine i below⟩
      rw [qualifying, map_eq_nil_iff, filter_eq_nil_iff] at nothing
      simpa using nothing i (mem_range.mpr below)
    intro unkept
    refine ⟨fun i below => (unkept i below).2, ?_, ?_⟩
    · rw [qualifying, map_eq_nil_iff, filter_eq_nil_iff]
      intro i member
      simp [(unkept i (mem_range.mp member)).1]
    · intro _ i below kept
      rw [(unkept i below).1] at kept
      cases kept

end

/-- For every block without rows that are turned down late and every limit, the loop ends with all
rows in the result, in order and with their own values, exactly if it is in time. -/
theorem join_loop_complete_iff (p : Processor R K) (limit : Option Nat) (rows : Nat)
    (b : Buffers R V W) (empty : ∀ j k, b.tSmallSideMatches j k = [])
    (early : ∀ i < rows, ¬p.RejectedLate (b.outputRG i)) :
    p.Complete limit rows b ↔ p.InTime limit rows b := by
  by_cases stops : ∃ x < rows, p.fails (b.outputRG x) ∨
      reached limit (p.total b (x + 1))
  · -- the first row at which the first call ends
    obtain ⟨below, stop⟩ := Nat.find_spec stops
    have before : ∀ y < Nat.find stops, p.fails (b.outputRG y) = false ∧
        reached limit (p.total b (y + 1)) = false := fun y less => by
      have goesOn := Nat.find_min stops less
      simp only [not_and, not_or, Bool.not_eq_true] at goesOn
      exact goesOn (less.trans below)
    generalize Nat.find stops = x at below stop before
    have unreached : ∀ y, 0 < y → y ≤ x → reached limit (p.total b y) = false :=
      fun y positive le => by
        have earlier := (before (y - 1) (by omega)).2
        rwa [Nat.sub_add_cancel positive] at earlier
    have settled : ∀ y < x, p.Settled (b.outputRG y) := fun y less =>
      ⟨(before y less).1, early y (less.trans below)⟩
    by_cases fails : p.fails (b.outputRG x)
    · refine ⟨fun _ => .inl ⟨x, below, fails, ?_⟩, fun _ =>
        complete_of_fails empty below settled unreached fails⟩
      obtain zero | positive := Nat.eq_zero_or_pos x
      · exact .inl zero
      · exact .inr (unreached x positive (le_refl x))
    have fine : ∀ y ≤ x, p.fails (b.outputRG y) = false := fun y le => by
      obtain less | rfl := lt_or_eq_of_le le
      · exact (before y less).1
      · simpa using fails
    by_cases always : reached limit 0
    · exact complete_iff_zero empty (zero_lt_of_lt below) early (fine 0 (zero_le x))
        always
    refine complete_iff_cut empty below early fine (fun y le => ?_)
      (stop.resolve_left fails)
    obtain rfl | positive := Nat.eq_zero_or_pos y
    · exact Bool.eq_false_of_not_eq_true always
    · exact unreached y positive le
  · simp only [not_exists, not_and, not_or, Bool.not_eq_true] at stops
    exact complete_iff_through empty early (fun x below => (stops x below).1)
      fun x below => (stops x below).2

end Processor

open Processor

/-- One inner join in which each of two rows has one match. -/
def oneMatch : Processor Bool Unit :=
  pairing [sharing false fun _ _ => true]

lemma oneMatch_keeps (r : Bool) : oneMatch.keeps r := by
  revert r
  decide +kernel

/-- A limit that is reached with the last row. -/
theorem join_loop_complete_at_last_row : oneMatch.Complete (some 2) 2 twoRows := by
  refine (join_loop_complete_iff oneMatch (some 2) 2 twoRows (fun _ _ => rfl)
    fun i _ => (settled_of_keeps (oneMatch_keeps _)).2).mpr ?_
  refine .inr (.inr (.inr ⟨2, by decide, by decide, ?_, ?_, ?_, ?_⟩))
  · decide +kernel
  · decide +kernel
  · exact fun i _ => oneMatch_keeps _
  · exact fun i above below => absurd above (by omega)

/-- A limit that is reached with the first row: the second call joins the first row again. -/
theorem second_call_repeats_first_row :
    (oneMatch.joinLoop (some 1) 2 3 0 twoRows).toOption.map
        (·.map fun out => out.map fun o => (o.row, o.relRid)) =
      some (some [(true, 0), (true, 1)]) ∧
    (oneMatch.executeTupleJoin none 2 0 twoRows).toOption.map
        (fun out => (oneMatch.outputs out.1).map fun o => (o.row, o.relRid)) =
      some [(true, 0), (false, 1)] := by
  decide +kernel

end TupleJoin
