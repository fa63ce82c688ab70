import Mathlib.Algebra.Order.Ring.Int
import Mathlib.Data.List.Nodup
import ColumnStore.Runs

/-!
# Transaction ids and slots

`SessionManagerServer` hands out transaction ids and keeps the last one in the txn-id file, which it
truncates and rewrites each time. Every open, read and write of the file may fail. The file is a
list of 32-bit words: a word of which fewer than four bytes are there is one that the reader does
not get. The server's mutex makes each call one step, but for a call of `newTxnID` that finds no
slot: it waits without the mutex and goes on in a step of its own, where it does not look the
session up again. `activeTxns` is a map in the source; here its entries stand in the order of their
insertion, which no call depends on.

`reset`, which is for tests only, and the queries that change nothing are left out.
-/

namespace SessionManagerServer

open List Runs

abbrev SID := Nat

/-- `CalpontSystemCatalog::SCN`, a signed 32-bit integer. -/
abbrev SCN := BitVec 32

abbrev TxnIDFile := List (BitVec 32)

structure TxnID where
  id : SCN
  valid : Bool
  deriving DecidableEq

structure Server where
  maxTxns : Nat
  semValue : Nat
  verID : SCN
  sysCatVerID : SCN
  systemState : BitVec 32
  activeTxns : List (SID × SCN)
  deriving DecidableEq

/-- The server, the file, of which there is none before the first save, and the calls of `newTxnID`
that wait for a slot: the session and `isDDL`. -/
structure World where
  server : Server
  file : Option TxnIDFile
  waiting : List (SID × Bool)
  deriving DecidableEq

def ssReady : BitVec 32 := 1 <<< 0

def ssSuspendPending : BitVec 32 := 1 <<< 2

def ssShutdownPending : BitVec 32 := 1 <<< 3

def ssRollback : BitVec 32 := 1 <<< 4

def ssForce : BitVec 32 := 1 <<< 5

def ssQueryReady : BitVec 32 := 1 <<< 6

/-- How far a save gets. `words` of the first write may reach the file although it fails. -/
inductive SaveOutcome
  | openFails
  | firstWriteFails (words : Nat)
  | secondWriteFails
  | saved
  deriving DecidableEq

inductive LoadOutcome
  | openFails
  | firstReadFails
  | secondReadFails
  | read
  deriving DecidableEq

/-- An open that succeeds has truncated the file. -/
def saveSMTxnIDAndState (w : World) : SaveOutcome → World × Except String Unit
  | .openFails =>
    (w, .error "SessionManagerServer: Could not open the transaction ID file")
  | .firstWriteFails words =>
    ({ w with file := some ([w.server.verID, w.server.sysCatVerID].take words) },
      .error "SessionManagerServer::newTxnID(): write(verid) failed")
  | .secondWriteFails =>
    ({ w with file := some [w.server.verID, w.server.sysCatVerID] },
      .error "SessionManagerServer::saveSystemState(): write(systemState) failed")
  | .saved =>
    ({ w with
        file := some [w.server.verID, w.server.sysCatVerID, w.server.systemState &&&
          ~~~(ssReady ||| ssQueryReady ||| ssSuspendPending ||| ssShutdownPending ||| ssForce)] },
      .ok ())

/-- A value that is not in the file keeps its default. Where the source throws, the constructor
catches it and goes on with what has been read. -/
def loadState (s : Server) : Option TxnIDFile → LoadOutcome → Server
  | none, _ => s
  | some _, .openFails => s
  | some _, .firstReadFails => s
  | some words, .secondReadFails => { s with verID := words[0]?.getD s.verID }
  | some words, .read =>
    { s with
      verID := words[0]?.getD s.verID
      sysCatVerID := words[1]?.getD s.sysCatVerID
      systemState :=
        match words[2]? with
        | some state => state &&& ~~~(ssReady ||| ssQueryReady ||| ssSuspendPending |||
            ssShutdownPending ||| ssRollback ||| ssForce)
        | none => 0 }

def construct (maxTxns : Nat) (file : Option TxnIDFile) (outcome : LoadOutcome) : World where
  server := loadState ⟨maxTxns, maxTxns, 0, 0, 0, []⟩ file outcome
  file := file
  waiting := []

/-- A slot is taken and the next id entered for the session, in place of another one. -/
def started (s : Server) (session : SID) (isDDL : Bool) : Server :=
  { s with
    semValue := s.semValue - 1
    verID := s.verID + 1
    activeTxns := (session, s.verID + 1) :: s.activeTxns.filter fun e => e.1 ≠ session
    sysCatVerID := if isDDL then s.sysCatVerID + 1 else s.sysCatVerID }

/-- The rest of `newTxnID` when there is a slot. -/
def takeSlot (w : World) (session : SID) (isDDL : Bool) (outcome : SaveOutcome) :
    World × Except String TxnID :=
  match saveSMTxnIDAndState { w with server := started w.server session isDDL } outcome with
  | (w', .error message) => (w', .error message)
  | (w', .ok ()) => (w', .ok ⟨w.server.verID + 1, true⟩)

/-- There is no result yet if the call has to wait. -/
def newTxnID (w : World) (session : SID) (block isDDL : Bool) (outcome : SaveOutcome) :
    World × Option (Except String TxnID) :=
  match w.server.activeTxns.lookup session with
  | some id => (w, some (.ok ⟨id, true⟩))
  | none =>
    if w.server.semValue = 0 then
      if block then ({ w with waiting := (session, isDDL) :: w.waiting }, none)
      else (w, some (.ok ⟨0, false⟩))
    else (takeSlot w session isDDL outcome).map id some

/-- A waiting call finds a slot and goes on. -/
def wake (w : World) (call : SID × Bool) (outcome : SaveOutcome) :
    Option (World × Except String TxnID) :=
  if call ∈ w.waiting ∧ w.server.semValue ≠ 0 then
    some (takeSlot { w with waiting := w.waiting.erase call } call.1 call.2 outcome)
  else none

/-- Every entry of the transaction goes, but one slot is given back. -/
def finishTransaction (w : World) (txn : TxnID) : World × Except String Unit :=
  if !txn.valid then
    (w, .error "SessionManagerServer::finishTransaction(): transaction is invalid")
  else if w.server.activeTxns.any fun e => e.2 = txn.id then
    ({ w with
        server := { w.server with
          activeTxns := w.server.activeTxns.filter fun e => e.2 ≠ txn.id
          semValue := w.server.semValue + 1 } }, .ok ())
  else (w, .error "SessionManagerServer::finishTransaction(): transaction doesn't exist")

def setSystemState (w : World) (state : BitVec 32) (outcome : SaveOutcome) :
    World × Except String Unit :=
  saveSMTxnIDAndState
    { w with server := { w.server with systemState := w.server.systemState ||| state } } outcome

def clearSystemState (w : World) (state : BitVec 32) (outcome : SaveOutcome) :
    World × Except String Unit :=
  saveSMTxnIDAndState
    { w with server := { w.server with systemState := w.server.systemState &&& ~~~state } } outcome

inductive Event
  | newTxnID (session : SID) (block isDDL : Bool) (outcome : SaveOutcome)
  | wake (call : SID × Bool) (outcome : SaveOutcome)
  | finishTransaction (txn : TxnID)
  | setSystemState (state : BitVec 32) (outcome : SaveOutcome)
  | clearSystemState (state : BitVec 32) (outcome : SaveOutcome)
  | restart (outcome : LoadOutcome)

/-- A run also remembers the ids that transactions have been given, the last one first. -/
structure Run where
  world : World
  given : List SCN
  deriving DecidableEq

/-- A transaction that asks again for its id is still the same one. -/
def give (r : Run) (session : SID) (txn : TxnID) : List SCN :=
  if txn.valid ∧ ((r.world.server.activeTxns.lookup session).isNone ∨ txn.id ∉ r.given) then
    txn.id :: r.given
  else r.given

def step (r : Run) : Event → Option Run
  | .newTxnID session block isDDL outcome =>
    match newTxnID r.world session block isDDL outcome with
    | (w, some (.ok txn)) => some ⟨w, give r session txn⟩
    | (w, _) => some ⟨w, r.given⟩
  | .wake call outcome =>
    (wake r.world call outcome).map fun
      | (w, .ok txn) => ⟨w, txn.id :: r.given⟩
      | (w, .error _) => ⟨w, r.given⟩
  | .finishTransaction txn => some ⟨(finishTransaction r.world txn).1, r.given⟩
  | .setSystemState state outcome => some ⟨(setSystemState r.world state outcome).1, r.given⟩
  | .clearSystemState state outcome => some ⟨(clearSystemState r.world state outcome).1, r.given⟩
  | .restart outcome =>
    some ⟨construct r.world.server.maxTxns r.world.file outcome, r.given⟩

/-- The call starts no transaction, or its save succeeds. -/
def SaveWorks (s : Server) (session : SID) (outcome : SaveOutcome) : Prop :=
  s.activeTxns.lookup session ≠ none ∨ s.semValue = 0 ∨ outcome = .saved

/-- The counter that a load finds in the file, if it gets to read it. -/
def stored : Option TxnIDFile → LoadOutcome → SCN
  | some words, .read | some words, .secondReadFails => words[0]?.getD 0
  | _, _ => 0

/-- A new transaction's save succeeds and the counter does not overflow; a session makes no second
call while one waits; at a restart the file is read and holds a counter that is not behind. -/
def Careful (r : Run) : Event → Prop
  | .newTxnID session _ _ outcome =>
    SaveWorks r.world.server session outcome ∧ r.world.server.verID.toInt < 2 ^ 31 - 1 ∧
      session ∉ r.world.waiting.map Prod.fst
  | .wake _ outcome => outcome = .saved ∧ r.world.server.verID.toInt < 2 ^ 31 - 1
  | .finishTransaction _ | .setSystemState _ _ | .clearSystemState _ _ => True
  | .restart outcome => r.world.server.verID.toInt ≤ (stored r.world.file outcome).toInt

instance (r : Run) : (e : Event) → Decidable (Careful r e)
  | .newTxnID .. => @instDecidableAnd _ _ instDecidableOr inferInstance
  | .wake .. => instDecidableAnd
  | .finishTransaction _ | .setSystemState _ _ | .clearSystemState _ _ => .isTrue trivial
  | .restart _ => Int.decLe ..

/-- What a call that throws must leave alone. -/
def Untouched (s s' : Server) : Prop :=
  s'.semValue = s.semValue ∧ s'.activeTxns = s.activeTxns ∧ s'.verID = s.verID ∧
    s'.sysCatVerID = s.sysCatVerID

section Calls

variable {w w' : World} {session : SID} {block isDDL : Bool} {outcome : SaveOutcome}

lemma takeSlot_spec (w : World) (session : SID) (isDDL : Bool) (outcome : SaveOutcome) :
    ∃ file, (takeSlot w session isDDL outcome).1 =
        ⟨started w.server session isDDL, file, w.waiting⟩ ∧
      (outcome = .saved ∧
          (takeSlot w session isDDL outcome).2 = .ok ⟨w.server.verID + 1, true⟩ ∨
        outcome ≠ .saved ∧ ∃ message, (takeSlot w session isDDL outcome).2 = .error message) := by
  cases outcome <;> exact ⟨_, rfl, by simp [takeSlot, saveSMTxnIDAndState]⟩

/-- A call finds the session's transaction, finds no slot, waits, or has a slot. -/
lemma newTxnID_cases (w : World) (session : SID) (block isDDL : Bool) (outcome : SaveOutcome) :
    (∃ id, w.server.activeTxns.lookup session = some id ∧
        newTxnID w session block isDDL outcome = (w, some (.ok ⟨id, true⟩))) ∨
      w.server.activeTxns.lookup session = none ∧
        (w.server.semValue = 0 ∧
            (newTxnID w session block isDDL outcome = (w, some (.ok ⟨0, false⟩)) ∨
              newTxnID w session block isDDL outcome =
                ({ w with waiting := (session, isDDL) :: w.waiting }, none)) ∨
          w.server.semValue ≠ 0 ∧ newTxnID w session block isDDL outcome =
            (takeSlot w session isDDL outcome).map id some) := by
  unfold newTxnID
  cases found : w.server.activeTxns.lookup session with
  | some id => exact .inl ⟨id, rfl, rfl⟩
  | none =>
    refine .inr ⟨rfl, ?_⟩
    by_cases full : w.server.semValue = 0
    · cases block <;> simp [full]
    · simp [full]

/-- A call with a slot leaves everything alone exactly when it does not throw. -/
lemma takeSlot_untouched_iff (session : SID) (isDDL : Bool) (slot : w.server.semValue ≠ 0) :
    (∀ w' message, takeSlot w session isDDL outcome = (w', .error message) →
        Untouched w.server w'.server) ↔ outcome = .saved := by
  obtain ⟨file, world, ⟨saved, result⟩ | ⟨notSaved, message, result⟩⟩ :=
    takeSlot_spec w session isDDL outcome
  · refine iff_of_true (fun w' message throws => ?_) saved
    rw [throws] at result
    cases result
  · refine iff_of_false (fun untouched => ?_) notSaved
    obtain ⟨sem, -⟩ := untouched _ message (Prod.ext world result)
    simp only [started] at sem
    omega

lemma untouched_iff :
    (∀ w' message, newTxnID w session block isDDL outcome = (w', some (.error message)) →
        Untouched w.server w'.server) ↔ SaveWorks w.server session outcome := by
  rcases newTxnID_cases w session block isDDL outcome with
    ⟨id, active, done⟩ | ⟨notActive, ⟨full, done | done⟩ | ⟨slot, done⟩⟩
  · exact iff_of_true (by simp [done]) (.inl (by simp [active]))
  · exact iff_of_true (by simp [done]) (.inr (.inl full))
  · exact iff_of_true (by simp [done]) (.inr (.inl full))
  have works : SaveWorks w.server session outcome ↔ outcome = .saved := by
    simp [SaveWorks, notActive, slot]
  rw [works, ← takeSlot_untouched_iff session isDDL slot, done]
  simp [Prod.ext_iff]

lemma toInt_next {id : SCN} (room : id.toInt < 2 ^ 31 - 1) : (id + 1).toInt = id.toInt + 1 := by
  have := BitVec.le_toInt id
  have one : (1 : SCN).toInt = 1 := by decide
  rw [BitVec.toInt_add, Int.bmod_eq_of_le] <;> omega

end Calls

/-- Between two calls. -/
structure Inv (r : Run) : Prop where
  increasing : r.given.Pairwise fun later earlier => earlier.toInt < later.toInt
  given_le : ∀ id ∈ r.given, id.toInt ≤ r.world.server.verID.toInt
  active_given : ∀ e ∈ r.world.server.activeTxns, e.2 ∈ r.given
  distinct : (r.world.server.activeTxns.map Prod.snd).Nodup
  slots : r.world.server.semValue + r.world.server.activeTxns.length = r.world.server.maxTxns
  idle : ∀ e ∈ r.world.server.activeTxns, e.1 ∉ r.world.waiting.map Prod.fst
  alone : (r.world.waiting.map Prod.fst).Nodup

section Invariant

variable {r r' : Run}

/-- Saving and the system state are not in the invariant. -/
lemma Inv.congr {w : World} {state : BitVec 32} (inv : Inv r)
    (server : w.server = { r.world.server with systemState := state })
    (waiting : w.waiting = r.world.waiting) : Inv ⟨w, r.given⟩ := by
  constructor
  all_goals simp only [server, waiting]
  exacts [inv.increasing, inv.given_le, inv.active_given, inv.distinct, inv.slots, inv.idle,
    inv.alone]

/-- A session that is neither active nor waits any more takes a slot. -/
lemma Inv.takeSlot {session : SID} {isDDL : Bool} {file : Option TxnIDFile}
    {waiting : List (SID × Bool)} (inv : Inv r) (slot : r.world.server.semValue ≠ 0)
    (room : r.world.server.verID.toInt < 2 ^ 31 - 1)
    (notActive : ∀ e ∈ r.world.server.activeTxns, e.1 ≠ session)
    (fewer : waiting.Sublist r.world.waiting) (left : session ∉ waiting.map Prod.fst) :
    Inv ⟨⟨started r.world.server session isDDL, file, waiting⟩,
      (r.world.server.verID + 1) :: r.given⟩ := by
  have others : r.world.server.activeTxns.filter (fun e => e.1 ≠ session) =
      r.world.server.activeTxns := filter_eq_self.mpr (by simpa using notActive)
  have next := toInt_next room
  have later : ∀ id ∈ r.given, id.toInt < (r.world.server.verID + 1).toInt := fun id mem => by
    have := inv.given_le id mem
    omega
  have slots := inv.slots
  constructor
  all_goals simp only [started, others]
  · exact pairwise_cons.mpr ⟨later, inv.increasing⟩
  · exact forall_mem_cons.mpr ⟨le_rfl, fun id old => (later id old).le⟩
  · exact forall_mem_cons.mpr
      ⟨mem_cons_self, fun e old => mem_cons_of_mem _ (inv.active_given e old)⟩
  · refine nodup_cons.mpr ⟨fun mem => ?_, inv.distinct⟩
    obtain ⟨e, active, same⟩ := mem_map.mp mem
    have := later e.2 (inv.active_given e active)
    rw [same] at this
    exact lt_irrefl _ this
  · simp only [length_cons]
    omega
  · exact forall_mem_cons.mpr
      ⟨left, fun e active waits => inv.idle e active ((fewer.map _).subset waits)⟩
  · exact inv.alone.sublist (fewer.map _)

lemma Inv.newTxnID {session : SID} {block isDDL : Bool} {outcome : SaveOutcome} (inv : Inv r)
    (careful : Careful r (.newTxnID session block isDDL outcome))
    (taken : step r (.newTxnID session block isDDL outcome) = some r') : Inv r' := by
  obtain ⟨works, room, notWaiting⟩ := careful
  unfold SessionManagerServer.step at taken
  rcases newTxnID_cases r.world session block isDDL outcome with
    ⟨id, active, done⟩ | ⟨notFound, found⟩
  · -- the transaction is known and so is its id
    obtain ⟨before, after, split, -⟩ := lookup_eq_some_iff.mp active
    have known : id ∈ r.given := inv.active_given (session, id) (by simp [split])
    have same : give r session ⟨id, true⟩ = r.given := by simp [give, active, known]
    simp only [done, same] at taken
    cases taken
    exact inv
  have notActive : ∀ e ∈ r.world.server.activeTxns, e.1 ≠ session := fun e active same => by
    simpa [same] using lookup_eq_none_iff.mp notFound e active
  rcases found with ⟨full, done | done⟩ | ⟨slot, done⟩
  · have same : give r session ⟨0, false⟩ = r.given := by simp [give]
    simp only [done, same] at taken
    cases taken
    exact inv
  · simp only [done] at taken
    cases taken
    refine ⟨inv.increasing, inv.given_le, inv.active_given, inv.distinct, inv.slots, ?_, ?_⟩
    · intro e active waits
      rcases mem_cons.mp waits with same | old
      exacts [notActive e active same, inv.idle e active old]
    · exact nodup_cons.mpr ⟨notWaiting, inv.alone⟩
  have saved : outcome = .saved := by
    rcases works with active | full | saved
    exacts [absurd notFound active, absurd full slot, saved]
  obtain ⟨file, world, ⟨-, result⟩ | ⟨notSaved, -⟩⟩ := takeSlot_spec r.world session isDDL outcome
  · have new : give r session ⟨r.world.server.verID + 1, true⟩ =
        (r.world.server.verID + 1) :: r.given := by simp [give, notFound]
    have slotTaken : SessionManagerServer.takeSlot r.world session isDDL outcome = (_, _) :=
      Prod.ext world result
    simp only [done, slotTaken, Prod.map_apply, id_eq, new] at taken
    cases taken
    exact inv.takeSlot slot room notActive (.refl _) notWaiting
  · exact absurd saved notSaved

lemma Inv.wake {call : SID × Bool} {outcome : SaveOutcome} (inv : Inv r)
    (careful : Careful r (.wake call outcome)) (taken : step r (.wake call outcome) = some r') :
    Inv r' := by
  obtain ⟨saved, room⟩ := careful
  obtain ⟨⟨w, result⟩, done, rfl⟩ := Option.map_eq_some_iff.mp taken
  obtain ⟨⟨waits, slot⟩, done⟩ := Option.ite_none_right_eq_some.mp done
  have notActive : ∀ e ∈ r.world.server.activeTxns, e.1 ≠ call.1 := fun e active same =>
    inv.idle e active (same ▸ mem_map_of_mem waits)
  have left := (nodup_cons.mp ((((perm_cons_erase waits).map Prod.fst).nodup_iff).mp inv.alone)).1
  obtain ⟨file, world, ⟨-, ok⟩ | ⟨notSaved, -⟩⟩ :=
    takeSlot_spec { r.world with waiting := r.world.waiting.erase call } call.1 call.2 outcome
  · rw [Option.some.inj done] at world ok
    obtain rfl : w = _ := world
    obtain rfl : result = _ := ok
    exact inv.takeSlot slot room notActive erase_sublist left
  · exact absurd saved notSaved

/-- Distinct ids: exactly one entry goes. -/
lemma Inv.finishTransaction (inv : Inv r) (txn : TxnID) :
    Inv ⟨(finishTransaction r.world txn).1, r.given⟩ := by
  unfold SessionManagerServer.finishTransaction
  split_ifs with invalid active
  · exact inv
  · obtain ⟨e, mem, same⟩ : ∃ e ∈ r.world.server.activeTxns, e.2 = txn.id := by
      simpa using active
    have once : r.world.server.activeTxns.countP (fun e => e.2 = txn.id) = 1 := by
      have count := count_eq_one_of_mem inv.distinct (mem_map_of_mem mem)
      rw [count_eq_countP, countP_map, same] at count
      rw [← count]
      exact countP_congr fun e _ => by simp
    have one := length_eq_countP_add_countP (fun e => decide (e.2 = txn.id))
      (l := r.world.server.activeTxns)
    rw [once, countP_eq_length_filter] at one
    have slots := inv.slots
    refine ⟨inv.increasing, inv.given_le, fun e mem => inv.active_given e (mem_filter.mp mem).1,
      inv.distinct.sublist (filter_sublist.map _), ?_,
      fun e mem => inv.idle e (mem_filter.mp mem).1, inv.alone⟩
    simp only [decide_not]
    simp only [decide_eq_true_eq, decide_not] at one
    omega
  · exact inv

lemma Inv.restart {outcome : LoadOutcome} (inv : Inv r) (careful : Careful r (.restart outcome)) :
    Inv ⟨construct r.world.server.maxTxns r.world.file outcome, r.given⟩ := by
  have fresh : (construct r.world.server.maxTxns r.world.file outcome).server.activeTxns = [] ∧
      (construct r.world.server.maxTxns r.world.file outcome).server.semValue =
        r.world.server.maxTxns ∧
      (construct r.world.server.maxTxns r.world.file outcome).server.maxTxns =
        r.world.server.maxTxns ∧
      (construct r.world.server.maxTxns r.world.file outcome).server.verID =
        stored r.world.file outcome := by
    rw [construct]
    cases r.world.file <;> cases outcome <;> simp [loadState, stored]
  obtain ⟨active, sem, max, verID⟩ := fresh
  refine ⟨inv.increasing, fun id mem => ?_, ?_, ?_, ?_, ?_, .nil⟩
  · rw [verID]
    exact (inv.given_le id mem).trans careful
  · simp [active]
  · simp [active]
  · simp [active, sem, max]
  · simp [active]

lemma Inv.step {e : Event} (inv : Inv r) (careful : Careful r e) (taken : step r e = some r') :
    Inv r' := by
  cases e with
  | newTxnID session block isDDL outcome => exact inv.newTxnID careful taken
  | wake call outcome => exact inv.wake careful taken
  | finishTransaction txn =>
    cases taken
    exact inv.finishTransaction txn
  | setSystemState state outcome | clearSystemState state outcome =>
    cases taken
    cases outcome <;> exact inv.congr rfl rfl
  | restart outcome =>
    cases taken
    exact inv.restart careful

/-- A server that has just been started. -/
def start (maxTxns : Nat) (file : Option TxnIDFile) (outcome : LoadOutcome) : Run :=
  ⟨construct maxTxns file outcome, []⟩

lemma inv_start (maxTxns : Nat) (file : Option TxnIDFile) (outcome : LoadOutcome) :
    Inv (start maxTxns file outcome) := by
  refine ⟨.nil, by simp [start], ?_, ?_, ?_, ?_, .nil⟩ <;>
    cases file <;> cases outcome <;> simp [start, construct, loadState]

/-- In a run of careful steps the ids given to transactions increase, every slot is free or taken by
an active transaction, and a call that throws leaves everything alone exactly when it has no save
that fails. -/
theorem transactions_ok {maxTxns : Nat} {file : Option TxnIDFile} {outcome : LoadOutcome}
    (reached : Runs.Reaches step Careful (start maxTxns file outcome) r) :
    (r.given.Pairwise fun later earlier => earlier.toInt < later.toInt) ∧
      r.world.server.semValue + r.world.server.activeTxns.length = r.world.server.maxTxns ∧
      (∀ session block isDDL outcome,
        (∀ w' message,
          newTxnID r.world session block isDDL outcome = (w', some (.error message)) →
            Untouched r.world.server w'.server) ↔ SaveWorks r.world.server session outcome) ∧
      ∀ call ∈ r.world.waiting, ∀ outcome, r.world.server.semValue ≠ 0 →
        ((∀ w' message, wake r.world call outcome = some (w', .error message) →
          Untouched r.world.server w'.server) ↔ outcome = .saved) := by
  have inv : Inv r :=
    reached.invariant (inv_start maxTxns file outcome) fun _ _ _ inv careful taken =>
      inv.step careful taken
  refine ⟨inv.increasing, inv.slots, fun _ _ _ _ => untouched_iff,
    fun call waits outcome slot => ?_⟩
  simp only [wake, waits, slot, ne_eq, not_false_eq_true, and_self, if_true, Option.some.injEq]
  exact takeSlot_untouched_iff (w := { r.world with waiting := _ }) call.1 call.2 slot

/-- The state is saved with a failing write, which empties the file. -/
def truncation : List Event :=
  [.newTxnID 1 true false .saved, .setSystemState ssReady (.firstWriteFails 0), .restart .read,
    .newTxnID 2 true false .saved]

/-- Session 3 makes two calls that wait for the two slots. -/
def doubleWait : List Event :=
  [.newTxnID 1 true false .saved, .newTxnID 2 true false .saved, .newTxnID 3 true false .saved,
    .newTxnID 3 true false .saved, .finishTransaction ⟨1, true⟩, .wake (3, false) .saved,
    .finishTransaction ⟨2, true⟩, .wake (3, false) .saved]

/-- After the file was emptied the next server starts again at id 1. A new transaction whose save
fails keeps its slot. Of two calls of a session that waited, the second takes a slot for no
transaction more. -/
theorem truncated_file_repeats_id :
    (∃ r, Runs.Reaches step (fun _ _ => True) (start 4 none .read) r ∧ r.given = [1, 1]) ∧
      (∃ w message,
        newTxnID (construct 4 none .read) 1 true false .openFails = (w, some (.error message)) ∧
          w.server.semValue = 3 ∧ w.server.activeTxns = [(1, 1)] ∧ w.server.verID = 1) ∧
      ∃ r, Runs.Reaches step (fun _ _ => True) (start 2 none .read) r ∧
        r.world.server.semValue = 0 ∧ r.world.server.activeTxns = [(3, 4)] := by
  have repeats : execute step (fun _ _ => True) (start 4 none .read) truncation = some _ := rfl
  have leaks : execute step (fun _ _ => True) (start 2 none .read) doubleWait = some _ := rfl
  exact ⟨⟨_, reaches_of_execute repeats, by decide⟩, ⟨_, _, rfl, by decide, by decide, by decide⟩,
    _, reaches_of_execute leaks, by decide, by decide⟩

/-- One transaction before a restart and two after it, of which the last one waits for the slot. -/
def restartAndWait : List Event :=
  [.newTxnID 1 true true .saved, .restart .read, .newTxnID 2 true false .saved,
    .newTxnID 3 true false .saved, .finishTransaction ⟨2, true⟩, .wake (3, false) .saved]

theorem transactions_ok_across_restart :
    ∃ r : Run, r.given = [3, 2, 1] ∧
      (r.given.Pairwise fun later earlier => earlier.toInt < later.toInt) ∧
      r.world.server.semValue + r.world.server.activeTxns.length = r.world.server.maxTxns := by
  have runs : execute step Careful (start 1 none .read) restartAndWait = some _ := rfl
  obtain ⟨increasing, slots, -⟩ := transactions_ok (reaches_of_execute runs)
  exact ⟨_, by decide, increasing, slots⟩

end Invariant

end SessionManagerServer
