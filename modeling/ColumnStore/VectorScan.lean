import ColumnStore.VectorFilter
import ColumnStore.CasualPartition

/-!
# A block read by vectors and slot by slot

The result of a scan is a list of slots that are written one after the other, and the bounds of
the values read. For the vectorised form the slots of whole vectors are those the masks accept,
and the bounds are kept lane by lane. The lists of both forms differ in the slots that only the
plain comparisons accept, so the results are the same exactly when there is none.
-/

namespace BlockScan

open ColumnTypes BlockFilter CasualPartition List Nat

variable {ct : ColType}

section Lanes

variable {α : Type} (lt : α → α → Bool) (key : α → Int)

/-- The least of some values, as the loops keep it. -/
def least (low : α) (values : List α) : α :=
  values.foldl (fun low x => if lt x low then x else low) low

/-- One vector of values taken into the lanes of a vector of bounds. -/
def takeIn (ok : α → Bool) (lanes values : List α) : List α :=
  lanes.zipWith (fun lane x => if lt x lane && ok x then x else lane) values

/-- The lanes and the values seen have the same lower bounds. -/
def Bounds (lanes seen : List α) : Prop :=
  ∀ z, (∀ lane ∈ lanes, z ≤ key lane) ↔ ∀ x ∈ seen, z ≤ key x

variable (ordered : ∀ x y, lt x y = decide (key x < key y))

include ordered

lemma le_least_iff (z : Int) (low : α) (values : List α) :
    z ≤ key (least lt low values) ↔ ∀ x ∈ low :: values, z ≤ key x := by
  induction values generalizing low with
  | nil => simp [least]
  | cons x values later =>
    have chosen : z ≤ key (if lt x low then x else low) ↔ z ≤ key low ∧ z ≤ key x := by
      by_cases less : key x < key low <;> simp [ordered, less] <;> omega
    have step : least lt low (x :: values) = least lt (if lt x low then x else low) values := rfl
    rw [step, later, forall_mem_cons, chosen, forall_mem_cons, forall_mem_cons, and_assoc]

lemma Bounds.takeIn {ok : α → Bool} {lanes values seen : List α} (bounds : Bounds key lanes seen)
    (sameLength : lanes.length = values.length) :
    Bounds key (takeIn lt ok lanes values) (seen ++ values.filter ok) := by
  intro z
  rw [forall_mem_append, ← bounds z]
  clear bounds
  induction lanes generalizing values with
  | nil =>
    obtain rfl := eq_nil_of_length_eq_zero sameLength.symm
    simp [BlockScan.takeIn]
  | cons lane lanes later =>
    obtain ⟨x, values, rfl⟩ := exists_cons_of_length_eq_add_one sameLength.symm
    have rest := later (succ_injective sameLength)
    have chosen : z ≤ key (if lt x lane && ok x then x else lane) ↔
        z ≤ key lane ∧ (ok x → z ≤ key x) := by
      cases ok x <;> by_cases less : key x < key lane <;> simp [ordered, less] <;> omega
    rw [BlockScan.takeIn, zipWith_cons_cons, forall_mem_cons, ← BlockScan.takeIn, rest]
    simp only [forall_mem_cons, mem_filter, and_imp]
    tauto

variable (injective : ∀ x y, key x = key y → x = y)

include injective

lemma Bounds.least_eq {first low : α} {lanes seen : List α}
    (bounds : Bounds key (first :: lanes) (low :: seen)) :
    least lt first lanes = least lt low seen := by
  refine injective _ _ (eq_of_forall_le_iff fun z => ?_)
  rw [le_least_iff lt key ordered, le_least_iff lt key ordered]
  exact bounds z

end Lanes

/-- The order of a storage type, as a number. -/
def laneKey (v : Value ct) : Int :=
  match kind ct with
  | .unsigned => v.toNat
  | _ => v.toInt

variable (v w : Value ct)

lemma laneLt_eq : laneLt v w = decide (laneKey v < laneKey w) := by
  unfold laneLt laneKey
  cases kind ct <;> simp

lemma laneKey_injective (same : laneKey v = laneKey w) : v = w := by
  unfold laneKey at same
  split at same
  · exact BitVec.toNat_inj.mp (Int.ofNat_inj.mp same)
  · exact BitVec.toInt_inj.mp same

/-- The order of the values from above. -/
def laneGt (v w : Value ct) : Bool := laneLt w v

lemma laneGt_eq : laneGt v w = decide (-laneKey v < -laneKey w) := by
  rw [laneGt, laneLt_eq, decide_eq_decide]
  omega

lemma updateMinMax_run (bounds : Value ct × Value ct) (values : List (Value ct)) :
    values.foldl updateMinMax bounds =
      (least laneLt bounds.1 values, least laneGt bounds.2 values) := by
  induction values generalizing bounds with
  | nil => rfl
  | cons x values later => exact later (updateMinMax bounds x)

lemma maskAnd_map {α : Type} (l : List α) (f g : α → Bool) :
    maskAnd (l.map f) (l.map g) = l.map fun x => f x && g x := by
  simp [maskAnd, zipWith_map]

lemma maskOr_map {α : Type} (l : List α) (f g : α → Bool) :
    maskOr (l.map f) (l.map g) = l.map fun x => f x || g x := by
  simp [maskOr, zipWith_map]

/-- How the masks of two filters go together. -/
def combine (bop : Bop) (a b : Bool) : Bool := if isOr bop then a || b else a && b

variable (bop : Bop)

variable (dataVec : List (Value ct))

lemma combine_mask (arg : ColArgs ct)
    (m : Value ct → Bool) :
    (if isOr bop then maskOr (dataVec.map m) (simdCompare dataVec arg)
      else maskAnd (dataVec.map m) (simdCompare dataVec arg)) =
    dataVec.map fun v => combine bop (m v) (laneCompare v arg.val arg.cop) := by
  cases either : isOr bop <;> simp [simdCompare, maskAnd_map, maskOr_map, combine, either]

lemma combine_run (v : Value ct) (args : List (ColArgs ct)) (start : Bool) :
    args.foldl (fun result arg => combine bop result (laneCompare v arg.val arg.cop)) start =
      if isOr bop then start || args.any fun arg => laneCompare v arg.val arg.cop
      else start && args.all fun arg => laneCompare v arg.val arg.cop := by
  induction args generalizing start with
  | nil => cases isOr bop <;> simp
  | cons arg args later =>
    rw [foldl_cons, later]
    cases either : isOr bop <;> simp [combine, either, Bool.and_assoc, Bool.or_assoc]

variable (args : List (ColArgs ct))

lemma filterMask_run (m : Value ct → Bool) :
    (args.foldl (fun (masks : List Bool × List Bool) arg =>
      let filterMask := simdCompare dataVec arg
      let filterMask := if isOr bop then maskOr masks.1 filterMask else maskAnd masks.1 filterMask
      (filterMask, filterMask)) (dataVec.map m, dataVec.map m)).2 =
    dataVec.map fun v =>
      args.foldl (fun result arg => combine bop result (laneCompare v arg.val arg.cop)) (m v) := by
  induction args generalizing m with
  | nil => rfl
  | cons arg args later =>
    simp only [foldl_cons, combine_mask]
    exact later _

lemma filterMask_eq :
    filterMask bop dataVec args = dataVec.map (laneFilter bop args) := by
  cases args with
  | nil => rfl
  | cons arg args =>
    unfold filterMask
    simp only [foldl_cons, combine_mask]
    rw [filterMask_run]
    refine map_congr_left fun v _ => ?_
    rw [combine_run]
    cases either : isOr bop <;> simp [combine, laneFilter, either]

/-- What a lane is written for. -/
def laneWrites (bop : Bop) (isNullValueMatches : Bool) (args : List (ColArgs ct)) (v : Value ct) :
    Bool :=
  v != getEmptyValue ct && (isNullValueMatches || v != getNullValue ct) && laneFilter bop args v

/-- A value that is neither NULL nor empty. -/
def inBounds (v : Value ct) : Bool := v != getNullValue ct && v != getEmptyValue ct

lemma vectWrite_map (req : Request ct) (out : ColResult ct) (rids : List Nat) (f : Nat → Bool) :
    vectWrite req out rids (rids.map f) = (rids.filter f).foldl (writeColValue req) out := by
  induction rids generalizing out with
  | nil => rfl
  | cons rid rids later =>
    cases chosen : f rid
    · simpa [vectWrite, chosen] using later out
    · simpa [vectWrite, chosen] using later (writeColValue req out rid)

lemma blend_eq (lt : Value ct → Value ct → Bool) (ok : Value ct → Bool)
    (lanes values : List (Value ct)) :
    blend lanes values (maskAnd (lanes.zipWith (fun lane x => lt x lane) values) (values.map ok)) =
      takeIn lt ok lanes values := by
  induction lanes generalizing values with
  | nil => rfl
  | cons lane lanes later =>
    cases values with
    | nil => rfl
    | cons x values => exact congrArg _ (later values)

lemma cmpGt_comm (lanes values : List (Value ct)) :
    cmpGt values lanes = lanes.zipWith (fun lane x => laneGt x lane) values :=
  zipWith_comm

lemma vectorIteration_eq (req : Request ct) (isNullValueMatches : Bool)
    (rids : List Nat) (state : VectorState ct) :
    vectorIteration bop req isNullValueMatches rids state =
      { out := (rids.filter fun rid =>
          laneWrites bop isNullValueMatches req.filter.args (req.slot rid)).foldl
          (writeColValue req) state.out
        simdMin := if req.validMinMax then takeIn laneLt inBounds state.simdMin (rids.map req.slot)
          else state.simdMin
        simdMax := if req.validMinMax then takeIn laneGt inBounds state.simdMax (rids.map req.slot)
          else state.simdMax } := by
  have writeMask : ∀ dataVec : List (Value ct),
      maskAnd (if isNullValueMatches then dataVec.map (· != getEmptyValue ct)
        else maskAnd (dataVec.map (· != getEmptyValue ct)) (dataVec.map (· != getNullValue ct)))
        (filterMask bop dataVec req.filter.args) =
      dataVec.map (laneWrites bop isNullValueMatches req.filter.args) := by
    cases isNullValueMatches <;> simp [filterMask_eq, maskAnd_map, laneWrites]
  simp only [vectorIteration, writeMask]
  rw [maskAnd_map, cmpGt_comm state.simdMax, cmpGt, blend_eq, blend_eq, map_map, vectWrite_map]
  rfl

variable {bounds : Value ct × Value ct}

section Runs

variable (bop : Bop) (req : Request ct) (isNullValueMatches : Bool)

lemma vectorLoop_out (n : Nat) (order : List Nat) (state : VectorState ct) :
    (vectorLoop bop req isNullValueMatches n order state).out =
      ((order.take (n * vectorSize ct)).filter fun rid =>
        laneWrites bop isNullValueMatches req.filter.args (req.slot rid)).foldl
        (writeColValue req) state.out := by
  induction n generalizing order state with
  | zero => simp [vectorLoop]
  | succ n later =>
    rw [vectorLoop, later, vectorIteration_eq, ← foldl_append, ← filter_append,
      add_one_mul, add_comm (n * _), take_add]

/-- What the lanes of the bounds keep: there is one for each slot of a vector, and their bounds
are those of the values seen. -/
structure LanesKept (state : VectorState ct) (bounds : Value ct × Value ct)
    (seen : List (Value ct)) : Prop where
  minLength : state.simdMin.length = vectorSize ct
  maxLength : state.simdMax.length = vectorSize ct
  low : Bounds laneKey state.simdMin (bounds.1 :: seen)
  high : Bounds (fun v => -laneKey v) state.simdMax (bounds.2 :: seen)

variable {req}

lemma takeIn_length {α : Type} {lt : α → α → Bool} {ok : α → Bool} {lanes values : List α}
    (sameLength : lanes.length = values.length) :
    (takeIn lt ok lanes values).length = lanes.length := by
  rw [takeIn, length_zipWith, ← sameLength, min_self]

variable {state : VectorState ct} {seen : List (Value ct)}

lemma LanesKept.iteration (valid : req.validMinMax) {rids : List Nat}
    (whole : rids.length = vectorSize ct) (kept : LanesKept state bounds seen) :
    LanesKept (vectorIteration bop req isNullValueMatches rids state) bounds
      (seen ++ (rids.map req.slot).filter inBounds) := by
  have minLength : state.simdMin.length = (rids.map req.slot).length := by
    rw [kept.minLength, length_map, whole]
  have maxLength : state.simdMax.length = (rids.map req.slot).length := by
    rw [kept.maxLength, length_map, whole]
  rw [vectorIteration_eq]
  simp only [valid]
  exact
    { minLength := (takeIn_length minLength).trans kept.minLength
      maxLength := (takeIn_length maxLength).trans kept.maxLength
      low := kept.low.takeIn laneLt laneKey laneLt_eq minLength
      high := kept.high.takeIn laneGt (fun v => -laneKey v) laneGt_eq maxLength }

lemma LanesKept.loop (valid : req.validMinMax) {n : Nat} {order : List Nat}
    (enough : n * vectorSize ct ≤ order.length) (kept : LanesKept state bounds seen) :
    LanesKept (vectorLoop bop req isNullValueMatches n order state) bounds
      (seen ++ ((order.take (n * vectorSize ct)).map req.slot).filter inBounds) := by
  induction n generalizing order state seen with
  | zero => simpa [vectorLoop] using kept
  | succ n later =>
    rw [add_one_mul] at enough
    have whole : (order.take (vectorSize ct)).length = vectorSize ct :=
      length_take_of_le (by omega)
    have rest : n * vectorSize ct ≤ (order.drop (vectorSize ct)).length := by
      rw [length_drop]
      omega
    have next := later rest (kept.iteration bop isNullValueMatches valid whole)
    rwa [append_assoc, ← filter_append, ← map_append, ← take_add, add_comm, ← add_one_mul] at next

lemma vectorSize_pos (ct : ColType) : 0 < vectorSize ct := by
  have width := ct.colWidth_mem
  simp only [mem_cons, not_mem_nil, or_false] at width
  unfold vectorSize
  rcases width with width | width | width | width | width <;> rw [width] <;> decide

lemma Bounds.replicate {α : Type} (key : α → Int) (low : α) {n : Nat} (positive : 0 < n) :
    Bounds key (replicate n low) [low] := by
  intro z
  simp [Nat.pos_iff_ne_zero.mp positive]

lemma LanesKept.extractMinMax_eq (kept : LanesKept state bounds seen) :
    extractMinMax state bounds = seen.foldl updateMinMax bounds := by
  have size := vectorSize_pos ct
  obtain ⟨firstMin, lanesMin, isMin⟩ := exists_cons_of_length_pos (kept.minLength ▸ size)
  obtain ⟨firstMax, lanesMax, isMax⟩ := exists_cons_of_length_pos (kept.maxLength ▸ size)
  have low := kept.low
  have high := kept.high
  rw [isMin] at low
  rw [isMax] at high
  rw [updateMinMax_run, ← low.least_eq laneLt laneKey laneLt_eq laneKey_injective,
    ← high.least_eq laneGt _ laneGt_eq (fun v w _ => laneKey_injective v w (by omega)),
    extractMinMax, isMin, isMax]
  rfl

end Runs

section Messages

variable (req : Request ct)

/-- The message of a run: the slots `rids`, written one after the other, and the bounds. -/
def message (rids : List Nat) (bounds : Value ct × Value ct) : ColResult ct :=
  { rids.foldl (writeColValue req) .empty with
    minMax := if req.validMinMax then some bounds else none }

variable (rids : List Nat)

variable (out : ColResult ct)

lemma write_run_nvals :
    (rids.foldl (writeColValue req) out).nvals = out.nvals + rids.length := by
  induction rids generalizing out with
  | nil => rfl
  | cons rid rids later =>
    rw [foldl_cons, later, length_cons]
    simp only [writeColValue]
    omega

lemma write_run_minMax (m : Option (Value ct × Value ct)) :
    rids.foldl (writeColValue req) { out with minMax := m } =
      { rids.foldl (writeColValue req) out with minMax := m } := by
  induction rids generalizing out with
  | nil => rfl
  | cons rid rids later => exact later (writeColValue req out rid)

variable (cs : Charset) (isNullValueMatches : Bool)

/-- What the scalar loop writes a slot for. -/
def scalarWrites (rid : Nat) : Bool :=
  req.slot rid != getEmptyValue ct && if req.slot rid = getNullValue ct then isNullValueMatches
    else matchingColValue cs false (req.slot rid) req.filter

variable (bounds : Value ct × Value ct)

lemma scalarSlot_eq (rid : Nat) :
    scalarSlot cs req isNullValueMatches (out, bounds) rid =
      (if scalarWrites req cs isNullValueMatches rid then writeColValue req out rid else out,
        if req.validMinMax && inBounds (req.slot rid) then updateMinMax bounds (req.slot rid)
        else bounds) := by
  have passed : req.slot rid = getEmptyValue ct →
      nextColValue req rid = none ∨ nextColValue req rid = some true := by
    intro empty
    unfold nextColValue
    split <;> simp [empty]
  by_cases empty : req.slot rid = getEmptyValue ct
  · have unchanged : scalarSlot cs req isNullValueMatches (out, bounds) rid = (out, bounds) := by
      rcases passed empty with next | next <;> simp [scalarSlot, next]
    simp [unchanged, scalarWrites, inBounds, empty]
  have next : nextColValue req rid = some false := by simp [nextColValue, empty]
  by_cases null : req.slot rid = getNullValue ct
  · simp [scalarSlot, next, scalarWrites, inBounds, null, null ▸ empty]
  · simp [scalarSlot, next, scalarWrites, inBounds, null, empty]

lemma scalarSlot_run :
    rids.foldl (scalarSlot cs req isNullValueMatches) (out, bounds) =
      ((rids.filter (scalarWrites req cs isNullValueMatches)).foldl (writeColValue req) out,
        if req.validMinMax then ((rids.map req.slot).filter inBounds).foldl updateMinMax bounds
        else bounds) := by
  induction rids generalizing out bounds with
  | nil => simp
  | cons rid rids later =>
    rw [foldl_cons, scalarSlot_eq, later, filter_cons, map_cons, filter_cons]
    cases scalarWrites req cs isNullValueMatches rid <;> cases req.validMinMax <;>
      cases inBounds (req.slot rid) <;> simp

lemma scalarFiltering_eq :
    scalarFiltering_ cs req isNullValueMatches 0 .empty bounds =
      message req (req.order.filter (scalarWrites req cs isNullValueMatches))
        (((req.order.map req.slot).filter inBounds).foldl updateMinMax bounds) := by
  simp only [scalarFiltering_, scalarSlot_run, message]
  split
  · rfl
  · rw [← write_run_minMax]
    rfl

lemma vectorizedFiltering_eq (bop : Bop) (bounds : Value ct × Value ct) :
    vectorizedFiltering_ cs bop req isNullValueMatches bounds =
      message req
        (((req.order.take (req.order.length / vectorSize ct * vectorSize ct)).filter fun rid =>
            laneWrites bop isNullValueMatches req.filter.args (req.slot rid)) ++
          (req.order.drop (req.order.length / vectorSize ct * vectorSize ct)).filter
            (scalarWrites req cs isNullValueMatches))
        (((req.order.map req.slot).filter inBounds).foldl updateMinMax bounds) := by
  simp only [vectorizedFiltering_, scalarFiltering_, scalarSlot_run, message]
  split
  · rename_i valid
    have start : LanesKept
        ⟨.empty, replicate (vectorSize ct) bounds.1, replicate (vectorSize ct) bounds.2⟩
        bounds [] :=
      ⟨length_replicate, length_replicate, .replicate _ _ (vectorSize_pos ct),
        .replicate _ _ (vectorSize_pos ct)⟩
    have enough := div_mul_le_self req.order.length (vectorSize ct)
    have kept := start.loop bop isNullValueMatches valid enough
    rw [kept.extractMinMax_eq, vectorLoop_out, write_run_minMax, nil_append,
      ← foldl_append, ← foldl_append, ← filter_append, ← map_append, take_append_drop]
  · rw [vectorLoop_out, ← foldl_append, ← write_run_minMax]
    rfl

end Messages

lemma length_eq_of_message {req : Request ct} {rids rids' : List Nat}
    (same : message req rids bounds = message req rids' bounds) : rids.length = rids'.length := by
  have counts := congrArg ColResult.nvals same
  simpa [message, write_run_nvals] using counts

lemma filter_eq_of_length {α : Type} {p q : α → Bool} {l : List α} (within : ∀ x ∈ l, q x → p x)
    (sameLength : (l.filter p).length = (l.filter q).length) : ∀ x ∈ l, p x = q x := by
  have twice : (l.filter p).filter q = l.filter q := by
    rw [filter_filter]
    refine filter_congr fun x member => ?_
    cases accepted : q x
    · rfl
    · simp [within x member accepted]
  rw [← twice, eq_comm, length_filter_eq_length_iff] at sameLength
  intro x member
  rw [Bool.eq_iff_iff]
  exact ⟨fun accepted => sameLength x (mem_filter.mpr ⟨member, accepted⟩), within x member⟩

/-- A value is not accepted by plain comparisons alone: with "and" no comparison that accepts it
is an ordering comparison with NULL; with "or" one of those that accept it is none; with
"exclusive or" the number of those that are none is odd. -/
def PlainlyAccepted (bop : Bop) (args : List (ColArgs ct)) (v : Value ct) : Prop :=
  match bop with
  | .and | .none =>
    (∀ arg ∈ args, laneCompare v arg.val arg.cop = true) → ∀ arg ∈ args, OrderNull arg = false
  | .or =>
    (∃ arg ∈ args, laneCompare v arg.val arg.cop = true) →
      ∃ arg ∈ args, laneCompare v arg.val arg.cop = true ∧ OrderNull arg = false
  | .xor =>
    (∃ arg ∈ args, laneCompare v arg.val arg.cop = true) →
      Odd (args.countP fun arg => laneCompare v arg.val arg.cop && !OrderNull arg)

instance (bop : Bop) (args : List (ColArgs ct)) (v : Value ct) :
    Decidable (PlainlyAccepted bop args v) :=
  match bop with
  | .and | .none | .or | .xor => inferInstanceAs (Decidable (_ → _))

lemma laneFilter_eq_iff (v : Value ct) :
    laneFilter bop args v = scalarFilter bop args v ↔ PlainlyAccepted bop args v := by
  have oneWay : laneFilter bop args v = scalarFilter bop args v ↔
      (laneFilter bop args v → scalarFilter bop args v) := by
    rw [Bool.eq_iff_iff]
    exact ⟨And.left ∘ iff_iff_implies_and_implies.mp,
      fun sound => ⟨sound, laneFilter_of_scalarFilter⟩⟩
  rw [oneWay]
  by_cases noArgs : args = []
  · subst noArgs
    cases bop <;> simp [scalarFilter, PlainlyAccepted]
  unfold laneFilter scalarFilter
  rw [if_neg noArgs, if_neg noArgs]
  cases bop with
  | none | and =>
    simp only [isOr, holds, Bool.false_eq_true, if_false, all_eq_true, Bool.and_eq_true,
      Bool.not_eq_true']
    exact imp_congr_right fun compared =>
      forall₂_congr fun arg member => and_iff_right (compared arg member)
  | or =>
    simp [isOr, PlainlyAccepted, holds]
  | xor =>
    simp only [isOr, if_true, any_eq_true]
    rw [foldl_xor, Bool.false_xor, decide_eq_true_iff]
    rfl

section Agreement

variable (cs : Charset) {args : List (ColArgs ct)} {bop : Bop} {req : Request ct}
  (parsed : parseColumnFilter args bop = some req.filter)
  (integer : kind ct = .default ∨ kind ct = .unsigned)
  (unrounded : ∀ arg ∈ args, arg.rf = 0) (cops : ∀ arg ∈ args, arg.cop ∈ vectorCops)

include parsed integer unrounded cops

lemma laneWrites_of_scalarWrites {rid : Nat}
    (written : scalarWrites req cs (matchingColValue cs true (getNullValue ct) req.filter) rid) :
    laneWrites bop (matchingColValue cs true (getNullValue ct) req.filter) req.filter.args
      (req.slot rid) := by
  unfold laneWrites
  rw [laneFilter_parsed parsed]
  obtain ⟨nonEmpty, matched⟩ := Bool.and_eq_true_iff.mp written
  by_cases null : req.slot rid = getNullValue ct
  · rw [if_pos null] at matched
    have accepted := laneFilter_of_null cs parsed integer unrounded cops matched
    simp [matched, null ▸ nonEmpty, null, accepted]
  · rw [if_neg null, matching_known cs parsed integer unrounded cops null] at matched
    simp [nonEmpty, null, laneFilter_of_scalarFilter matched]

lemma laneWrites_eq_iff (rid : Nat) :
    laneWrites bop (matchingColValue cs true (getNullValue ct) req.filter) req.filter.args
        (req.slot rid) =
      scalarWrites req cs (matchingColValue cs true (getNullValue ct) req.filter) rid ↔
    (req.slot rid ≠ getEmptyValue ct → req.slot rid ≠ getNullValue ct →
      PlainlyAccepted bop args (req.slot rid)) := by
  unfold scalarWrites laneWrites
  rw [laneFilter_parsed parsed]
  by_cases empty : req.slot rid = getEmptyValue ct
  · simp [empty]
  by_cases null : req.slot rid = getNullValue ct
  · rw [null] at empty
    have accepted := laneFilter_of_null cs parsed integer unrounded cops
    cases matched : matchingColValue cs true (getNullValue ct) req.filter <;> simp [null, empty]
    exact accepted matched
  have nonEmpty : (req.slot rid != getEmptyValue ct) := bne_iff_ne.mpr empty
  have nonNull : (req.slot rid != getNullValue ct) := bne_iff_ne.mpr null
  rw [if_neg null, matching_known cs parsed integer unrounded cops null, nonEmpty, nonNull,
    Bool.or_true, Bool.true_and, Bool.true_and, Bool.true_and, laneFilter_eq_iff]
  exact ⟨fun plain _ _ => plain, fun plain => plain empty null⟩

/-- The vectorised form gives the message of the scalar loop, with its count, RIDs, values, flags
and bounds, exactly when each value of a whole vector that is neither NULL nor empty is not
accepted by plain comparisons alone. -/
theorem vectorized_eq_scalar_iff (bounds : Value ct × Value ct) :
    vectorizedFiltering_ cs bop req (matchingColValue cs true (getNullValue ct) req.filter) bounds =
      scalarFiltering_ cs req
        (matchingColValue cs true (getNullValue ct) req.filter) 0 .empty bounds ↔
    ∀ rid ∈ req.order.take (req.order.length / vectorSize ct * vectorSize ct),
      req.slot rid ≠ getEmptyValue ct → req.slot rid ≠ getNullValue ct →
        PlainlyAccepted bop args (req.slot rid) := by
  have pointwise := laneWrites_eq_iff cs parsed integer unrounded cops
  have within := fun rid => @laneWrites_of_scalarWrites _ cs _ _ _ parsed integer unrounded cops rid
  rw [vectorizedFiltering_eq, scalarFiltering_eq]
  generalize cut : req.order.length / vectorSize ct * vectorSize ct = n
  have divided : ∀ f : Nat → Bool, req.order.filter f =
      (req.order.take n).filter f ++ (req.order.drop n).filter f := by
    intro f
    rw [← filter_append, take_append_drop]
  rw [divided]
  constructor
  · intro same rid member
    refine (pointwise rid).mp (filter_eq_of_length (fun rid _ => within rid) ?_ rid member)
    have sameLength := length_eq_of_message same
    simpa using sameLength
  · intro plain
    rw [filter_congr fun rid member => (pointwise rid).mpr (plain rid member)]

end Agreement

/-- A request for the RIDs, the values and the bounds of a whole block. -/
def scanOf (srcArray : List (Value intColumn)) (args : List (ColArgs intColumn)) (bop : Bop) :
    Request intColumn :=
  ⟨srcArray, none, .both, true, (parseColumnFilter args bop).getD ⟨.alwaysTrue, []⟩⟩

/-- The message of one of the two forms for a whole block, from the widest bounds on. -/
def scalarScan (req : Request intColumn) : ColResult intColumn :=
  scalarFiltering_ numberCharset req
    (matchingColValue numberCharset true (getNullValue intColumn) req.filter) 0 .empty
    (0x7FFFFFFF, 0x80000000)

@[inherit_doc scalarScan]
def vectorizedScan (bop : Bop) (req : Request intColumn) : ColResult intColumn :=
  vectorizedFiltering_ numberCharset bop req
    (matchingColValue numberCharset true (getNullValue intColumn) req.filter)
    (0x7FFFFFFF, 0x80000000)

/-- Six slots, with a NULL and an empty one in the whole vector, and the filter `c < 10`. -/
theorem vectorized_eq_scalar_below_ten :
    let req := scanOf [1, getNullValue intColumn, getEmptyValue intColumn, 20, 5, 70]
      [⟨.lt, 0, 10⟩] .and
    vectorizedScan .and req = scalarScan req ∧ (scalarScan req).values = [1, 5] := by
  intro req
  have parsed : parseColumnFilter [⟨.lt, 0, 10⟩] .and = some req.filter := rfl
  exact ⟨(vectorized_eq_scalar_iff numberCharset parsed (by decide) (by decide) (by decide) _).mpr
    (by decide), by decide⟩

/-- Four slots. For `c > NULL` the vectorised form selects all of them and the scalar loop none;
for `c > 1 XOR c > 2` the vectorised form selects 2, 3 and 4 and the scalar loop only 2. -/
theorem vectorized_accepts_more :
    (let req := scanOf [1, 2, 3, 4] [⟨.gt, 0, getNullValue intColumn⟩] .and
     (vectorizedScan .and req).values = [1, 2, 3, 4] ∧ (scalarScan req).values = []) ∧
    (let req := scanOf [1, 2, 3, 4] [⟨.gt, 0, 1⟩, ⟨.gt, 0, 2⟩] .xor
     (vectorizedScan .xor req).values = [2, 3, 4] ∧ (scalarScan req).values = [2]) := by
  decide

end BlockScan
