import Mathlib.Algebra.Order.Group.Nat
import ColumnStore.Runs

/-!
# The controller and its workers

`MasterDBRMNode::msgProcessor` sends a client's command to every worker, gathers and compares the
replies, and sends either `CONFIRM` or `UNDO`. Another connection may raise `halting` at any time; a
reply that does not come raises it too. Then the command is taken back and tried again when the
controller has been resumed.

The controller runs here step by step, so that a halt or a lost connection can come between any two
steps. A worker is what it has done with this one command: the copies it has executed and not yet
confirmed, and those that are settled. Three commands have no second phase; the worker settles them
by itself. The set of workers stays the same during the request, and the requests of other clients
are left out.
-/

namespace MasterNode

open List Function Nat Option

variable {Msg : Type}

/-- A reply begins with the error code. -/
structure Reply where
  errCode : UInt8
  body : List UInt8
  deriving DecidableEq

def errOk : UInt8 := 0
def errFailure : UInt8 := 1
def errSlaveInconsistency : UInt8 := 2
def errNetwork : UInt8 := 3
def errReadonly : UInt8 := 5
def errInvalidOpLastPartition : UInt8 := 10
def errPartitionDisabled : UInt8 := 11
def errNotExistPartition : UInt8 := 12
def errPartitionEnabled : UInt8 := 13
def errNoPartitionPerformed : UInt8 := 16

/-- The commands that the controller tells apart; `partition` stands for `DELETE_PARTITION`,
`MARK_PARTITION_FOR_DELETION` and `RESTORE_PARTITION`. -/
inductive Kind
  | partition
  | flushInodeCaches
  | clear
  | takeSnapshot
  | beginVBCopy
  | other
  deriving DecidableEq

/-- The command needs the second phase. -/
def Kind.twoPhase : Kind → Bool
  | .flushInodeCaches | .clear | .takeSnapshot => false
  | .partition | .beginVBCopy | .other => true

structure Worker (Msg : Type) where
  pending : List Msg
  settled : List Msg
  reachable : Bool

inductive Message
  | command
  | confirm
  deriving DecidableEq

/-- Where `msgProcessor` is. -/
inductive Pc
  /-- At `retrycmd`. -/
  | waiting
  /-- `distribute`, about to look at the worker. -/
  | send (what : Message) (i : Nat)
  | sending (what : Message) (i : Nat)
  /-- `distribute` has thrown at the worker. -/
  | thrown (what : Message) (i : Nat)
  /-- `gatherResponses`, about to look at the worker. -/
  | gather (i : Nat)
  | reading (i : Nat)
  | gathered
  | compare
  | compared (err : UInt8)
  | done
  deriving DecidableEq

/-- `none` stands for an empty stream. The last two fields are not read: the streams gathered since
the command was last distributed, and the command as it was first distributed. -/
structure State (Msg : Type) where
  pc : Pc
  msg : Msg
  halting : Bool
  readOnly : Bool
  workers : Nat → Worker Msg
  responses : List (Option Reply)
  iSlave : Nat
  retry : Nat
  client : Option Reply
  round : List (Option Reply)
  command : Option Msg

/-- The request. `vbOID` replaces the dbroot in a `BEGIN_VB_COPY` by the OID of its version buffer
file; `busy` when there are active transactions. The controller does not start without a worker. -/
structure Request (Msg : Type) where
  slaves : Nat
  positive : 0 < slaves
  kind : Kind
  vbOID : Msg → Option Msg
  busy : Bool

def start (msg : Msg) (readOnly : Bool) : State Msg where
  pc := .waiting
  msg := msg
  halting := false
  readOnly := readOnly
  workers _ := ⟨[], [], true⟩
  responses := []
  iSlave := 0
  retry := 0
  client := none
  round := []
  command := none

inductive Action
  /-- The controller's next step. -/
  | go
  | reply (r : Reply)
  /-- No reply comes in time. -/
  | noReply
  | halt
  | resume
  /-- Nobody resumes the controller for five minutes. -/
  | timeout
  /-- The connection to a worker breaks. -/
  | lose (i : Nat)
  deriving DecidableEq

def Worker.deliver (twoPhase : Bool) (msg : Msg) (w : Worker Msg) : Worker Msg :=
  if twoPhase then { w with pending := w.pending ++ [msg] }
  else { w with settled := w.settled ++ [msg] }

def Worker.undo (w : Worker Msg) : Worker Msg :=
  { w with pending := [] }

def Worker.confirm (w : Worker Msg) : Worker Msg :=
  { w with pending := [], settled := w.settled ++ w.pending }

def Worker.receive (twoPhase : Bool) (msg : Msg) (w : Worker Msg) : Message → Worker Msg
  | .command => w.deliver twoPhase msg
  | .confirm => w.confirm

def State.finish (s : State Msg) (reply : Option Reply) : State Msg :=
  { s with pc := .done, client := reply }

def State.sendError (s : State Msg) (code : UInt8) : State Msg :=
  s.finish (some ⟨code, []⟩)

/-- The reply of the first worker goes to the client. -/
def State.answer (s : State Msg) : State Msg :=
  s.finish s.responses.head?.join

section Step

variable (req : Request Msg)

/-- Undo at the workers up to `iSlave`. -/
def undo (s : State Msg) : State Msg :=
  { s with
    workers := fun i =>
      if i < req.slaves ∧ i ≤ s.iSlave ∧ (s.workers i).reachable then (s.workers i).undo
      else s.workers i }

/-- The halted branch of `CHECK_ERROR1`. -/
def retryCommand (s : State Msg) : State Msg :=
  { undo req s with pc := .waiting, responses := [] }

def allEqual : List (Option Reply) → Bool
  | a :: b :: rest => a == b && allEqual (b :: rest)
  | _ => true

def compareResponses (responses : List (Option Reply)) (halting : Bool) : UInt8 :=
  match responses.head?.join with
  | none => errNetwork
  | some first =>
    if !allEqual responses && !halting then errSlaveInconsistency else first.errCode

/-- The errors of a partition command after which it is confirmed. -/
def tolerated (err : UInt8) : Bool :=
  err == errPartitionDisabled || err == errPartitionEnabled || err == errInvalidOpLastPartition ||
    err == errNotExistPartition || err == errNoPartitionPerformed

/-- The message to be distributed. -/
def translate (msg : Msg) : Option Msg :=
  if req.kind = .beginVBCopy then req.vbOID msg else some msg

def begin (s : State Msg) : State Msg :=
  if s.readOnly then s.sendError errReadonly
  else
    match translate req s.msg with
    | none => s.sendError 255
    | some msg =>
      if req.kind = .clear ∧ req.busy then s.finish (some ⟨errFailure, []⟩)
      else
        { s with
          pc := .send .command 0
          msg := msg
          retry := 0
          round := []
          command := some (s.command.getD msg) }

/-- What `distribute` goes on to. -/
def distributed (s : State Msg) : Message → State Msg
  | .command => { s with pc := .gather 0 }
  | .confirm => s.answer

def caught (s : State Msg) (i : Nat) : Message → State Msg
  | .command =>
    if s.halting then { s with pc := .gather 0 }
    else { (undo req { s with iSlave := i }).sendError errNetwork with readOnly := true }
  | .confirm => { s.answer with readOnly := s.readOnly || !s.halting }

def decided (s : State Msg) (err : UInt8) : State Msg :=
  if err = errSlaveInconsistency ∧ s.retry ≤ 1 then
    { s with pc := .send .command 0, retry := s.retry + 1, round := [] }
  else
    let s := { s with readOnly := s.readOnly || err == errSlaveInconsistency }
    if s.responses ≠ [] ∧ req.kind = .partition ∧ err ≠ errOk then
      { (if tolerated err then s else undo req s) with pc := .send .confirm 0 }
    else if s.halting then retryCommand req s
    else if err ≠ errOk then (undo req s).sendError err
    else if req.kind.twoPhase then { s with pc := .send .confirm 0 }
    else s.answer

def readFailed (s : State Msg) (i : Nat) : State Msg :=
  { s with halting := true, iSlave := i, pc := .gathered }

def next (s : State Msg) : Option (State Msg) :=
  match s.pc with
  | .waiting => if s.halting then none else some (begin req s)
  | .send what i =>
    if i < req.slaves ∧ s.halting = false then some { s with pc := .sending what i }
    else some (distributed { s with iSlave := i } what)
  | .sending what i =>
    if (s.workers i).reachable then
      some { s with
        workers := Function.update s.workers i
          ((s.workers i).receive req.kind.twoPhase s.msg what)
        pc := .send what (i + 1) }
    else if s.halting then some { s with pc := .send what (i + 1) }
    else some { s with pc := .thrown what i }
  | .thrown what i => some (caught req s i what)
  | .gather i =>
    if i < req.slaves ∧ s.halting = false then some { s with pc := .reading i }
    else some { s with iSlave := i, pc := .gathered }
  | .reading i => if (s.workers i).reachable then none else some (readFailed s i)
  | .gathered => if s.halting then some (retryCommand req s) else some { s with pc := .compare }
  | .compare =>
    some { s with
      pc := .compared (compareResponses s.responses s.halting)
      readOnly := s.readOnly || s.responses.head?.join.isNone }
  | .compared err => some (decided req s err)
  | .done => none

def push (s : State Msg) (i : Nat) (stream : Option Reply) : State Msg :=
  { s with
    pc := .gather (i + 1)
    responses := s.responses ++ [stream]
    round := s.round ++ [stream] }

def step (s : State Msg) : Action → Option (State Msg)
  | .go => next req s
  | .reply r =>
    match s.pc with
    | .reading i => if (s.workers i).reachable then some (push s i (some r)) else none
    | _ => none
  | .noReply =>
    match s.pc with
    | .reading i => some (if s.halting then push s i none else readFailed s i)
    | _ => none
  | .halt => some { s with halting := true }
  | .resume => if s.pc = .waiting then some { s with halting := false } else none
  | .timeout =>
    if s.pc = .waiting ∧ s.halting then some { s with halting := false, readOnly := true } else none
  | .lose i =>
    some { s with workers := Function.update s.workers i { s.workers i with reachable := false } }

end Step

section Statements

variable (req : Request Msg)

/-- When `halting` may be raised: an `UNDO` sent at the next look at it would reach every worker
that has the command by then, and no `CONFIRM` is left unsent. -/
def MayHalt : Pc → Prop
  | .waiting | .done | .send .command 0 | .thrown .confirm _ => True
  | .send .command i => i ≤ 1 ∧ req.kind.twoPhase
  | .sending .command i => i = 0 ∧ req.kind.twoPhase
  | .thrown .command i => i ≤ 1 ∧ (i = 0 ∨ req.kind.twoPhase)
  | .gather i | .reading i => req.slaves ≤ i + 1 ∧ req.kind.twoPhase
  | .gathered => req.kind.twoPhase
  | .compare | .compared _ => req.kind.twoPhase ∧ req.kind ≠ .partition
  | .send .confirm i => req.slaves ≤ i
  | .sending .confirm i => req.slaves ≤ i + 1

/-- When the connection to worker `i` may break: before the worker has the command, or after it has
got `CONFIRM`; that of the last worker also in between. -/
def MayLose (i : Nat) : Pc → Prop
  | .waiting => i = 0 ∨ req.kind.twoPhase
  | .send .command j | .sending .command j =>
    i = 0 ∧ j = 0 ∨ (j ≤ i ∨ req.slaves ≤ i + 1) ∧ req.kind.twoPhase
  | .gather _ | .reading _ | .gathered => req.slaves ≤ i + 1 ∧ req.kind.twoPhase
  | .compare | .compared _ => req.slaves ≤ i + 1 ∨ req.kind.twoPhase = false
  | .send .confirm j | .sending .confirm j => i < j ∨ req.slaves ≤ i + 1
  | .thrown .command _ => i = 0 ∨ req.kind.twoPhase
  | .thrown .confirm _ | .done => True

/-- Replies of one round agree, none is `ERR_SLAVE_INCONSISTENCY`, and a command without a second
phase does not fail. -/
def MayReply (s : State Msg) (r : Reply) : Prop :=
  (∀ stream ∈ s.round, stream = some r) ∧ r.errCode ≠ errSlaveInconsistency ∧
    (req.kind.twoPhase = false → r.errCode = errOk)

/-- Only the last worker may fail to reply. -/
def MayMiss (s : State Msg) : Prop :=
  match s.pc with
  | .reading i => req.slaves ≤ i + 1 ∧ req.kind.twoPhase
  | _ => True

/-- A command that is tried again is not changed by looking up the version buffer's OID again. -/
def MayGo (s : State Msg) : Prop :=
  s.pc = .waiting → s.command.isSome → req.kind = .beginVBCopy → req.vbOID s.msg = some s.msg

def Careful (s : State Msg) : Action → Prop
  | .go => MayGo req s
  | .reply r => MayReply req s r
  | .noReply => MayMiss req s
  | .halt => MayHalt req s.pc
  | .lose i => MayLose req i s.pc
  | .resume | .timeout => True

/-- Every reachable worker has one confirmed copy and the client the workers' common reply, or no
worker keeps a copy and the client has an error. -/
def Outcome (s : State Msg) : Prop :=
  (∃ msg, s.command = some msg ∧
      (∀ i < req.slaves, (s.workers i).reachable →
        (s.workers i).settled = [msg] ∧ (s.workers i).pending = []) ∧
      s.round.length = req.slaves ∧ ∀ stream ∈ s.round, stream = s.client) ∨
    (∀ i < req.slaves, (s.workers i).reachable →
        (s.workers i).settled = [] ∧ (s.workers i).pending = []) ∧
      ∃ r, s.client = some r ∧ r.errCode ≠ errOk

/-- The property of every state: no worker has two copies that were not undone, replies are compared
within their round, and a finished request has one of the two outcomes. -/
structure AppliesOnce (s : State Msg) : Prop where
  single : ∀ i, (s.workers i).pending.length ≤ 1
  latest : s.pc = .compare → s.responses = s.round
  outcome : s.pc = .done → Outcome req s

end Statements

def Clean (w : Worker Msg) : Prop :=
  w.settled = [] ∧ w.pending = []

/-- The worker has executed the command. -/
def Has (twoPhase : Bool) (msg : Msg) (w : Worker Msg) : Prop :=
  if twoPhase then w.pending = [msg] ∧ w.settled = [] else w.settled = [msg] ∧ w.pending = []

section Invariants

variable (req : Request Msg) (s : State Msg)

def AllClean : Prop :=
  ∀ j < req.slaves, (s.workers j).reachable = true → Clean (s.workers j)

/-- The workers before `i` have the command. -/
def SentTo (i : Nat) : Prop :=
  ∀ j < req.slaves, (s.workers j).reachable = true →
    (j < i → Has req.kind.twoPhase s.msg (s.workers j)) ∧ (i ≤ j → Clean (s.workers j))

/-- Undoing up to worker `i` leaves no copy. -/
def Covered (i : Nat) : Prop :=
  ∀ j < req.slaves, (s.workers j).reachable = true →
    Clean (s.workers j) ∨ (s.workers j).settled = [] ∧ j ≤ i

/-- The workers before `i` have got `CONFIRM`. -/
def ConfirmedTo (i : Nat) : Prop :=
  ∀ j < req.slaves, (s.workers j).reachable = true →
    (j < i → (s.workers j).settled = [s.msg] ∧ (s.workers j).pending = []) ∧
      (i ≤ j → Has true s.msg (s.workers j))

/-- Which workers may have been lost when the ones before `i` have the command. -/
def LostAfter (i : Nat) : Prop :=
  ∀ j < req.slaves, (s.workers j).reachable = false →
    (i ≤ j ∨ req.slaves ≤ j + 1) ∧ req.kind.twoPhase = true ∨ j = 0 ∧ i = 0

def LostPhase : Prop :=
  ∀ j < req.slaves, (s.workers j).reachable = false → j = 0 ∨ req.kind.twoPhase = true

def LostLast : Prop :=
  ∀ j < req.slaves, (s.workers j).reachable = false →
    req.slaves ≤ j + 1 ∨ req.kind.twoPhase = false

/-- The replies of the first `i` workers are in and agree. -/
def Gathered (i : Nat) : Prop :=
  s.responses = s.round ∧ ∃ r : Reply, s.round = List.replicate i (some r) ∧
    r.errCode ≠ errSlaveInconsistency ∧ (req.kind.twoPhase = false → r.errCode = errOk)

/-- All replies are in and agree on the error code. -/
def Agreed (err : UInt8) : Prop :=
  s.responses = s.round ∧ ∃ r : Reply, s.round = List.replicate req.slaves (some r) ∧
    r.errCode = err

/-- While the confirmation is sent: it takes effect, or the command was undone before. -/
def Confirming (i : Nat) : Prop :=
  (∃ err, Agreed req s err) ∧ ConfirmedTo req s i ∧
      (∀ j < req.slaves, (s.workers j).reachable = false → j < i ∨ req.slaves ≤ j + 1) ∨
    AllClean req s ∧ ∃ err, Agreed req s err ∧ err ≠ errOk

def At : Pc → Prop
  | .waiting =>
    AllClean req s ∧ s.responses = [] ∧ (s.command = none ∨ s.command = some s.msg) ∧
      LostPhase req s
  | .send .command i =>
    s.command = some s.msg ∧ s.responses = [] ∧ s.round = [] ∧ i ≤ req.slaves ∧ SentTo req s i ∧
      LostPhase req s ∧ (s.halting = false → LostAfter req s i) ∧
      (s.halting = true → i = 0 ∨ i ≤ 1 ∧ req.kind.twoPhase = true)
  | .sending .command i =>
    s.command = some s.msg ∧ s.responses = [] ∧ s.round = [] ∧ i < req.slaves ∧ SentTo req s i ∧
      LostPhase req s ∧ (s.halting = false → LostAfter req s i) ∧
      (s.halting = true → i = 0 ∧ req.kind.twoPhase = true)
  | .thrown .command i =>
    s.command = some s.msg ∧ s.responses = [] ∧ s.round = [] ∧ SentTo req s i ∧
      LostPhase req s ∧ (i = 0 ∨ req.kind.twoPhase = true) ∧ (s.halting = true → i ≤ 1)
  | .gather i =>
    s.command = some s.msg ∧ i ≤ req.slaves ∧ LostPhase req s ∧
      (s.halting = false → Gathered req s i ∧ SentTo req s req.slaves ∧
        LostAfter req s req.slaves) ∧
      (s.halting = true → Covered req s i)
  | .reading i =>
    s.command = some s.msg ∧ i < req.slaves ∧ LostPhase req s ∧
      (s.halting = false → Gathered req s i ∧ SentTo req s req.slaves ∧
        LostAfter req s req.slaves) ∧
      (s.halting = true → Covered req s i)
  | .gathered =>
    s.command = some s.msg ∧
      (s.halting = false → Gathered req s req.slaves ∧ SentTo req s req.slaves ∧ LostLast req s ∧
        s.iSlave = req.slaves) ∧
      (s.halting = true → Covered req s s.iSlave ∧ LostPhase req s)
  | .compare =>
    s.command = some s.msg ∧ Gathered req s req.slaves ∧ SentTo req s req.slaves ∧
      LostLast req s ∧ s.iSlave = req.slaves ∧
      (s.halting = true → req.kind.twoPhase = true ∧ req.kind ≠ .partition)
  | .compared err =>
    s.command = some s.msg ∧ Agreed req s err ∧ err ≠ errSlaveInconsistency ∧
      (req.kind.twoPhase = false → err = errOk) ∧ SentTo req s req.slaves ∧
      LostLast req s ∧ s.iSlave = req.slaves ∧
      (s.halting = true → req.kind.twoPhase = true ∧ req.kind ≠ .partition)
  | .send .confirm i =>
    s.command = some s.msg ∧ Confirming req s i ∧ (s.halting = true → req.slaves ≤ i) ∧
      i ≤ req.slaves
  | .sending .confirm i =>
    s.command = some s.msg ∧ Confirming req s i ∧ (s.halting = true → req.slaves ≤ i + 1) ∧
      i < req.slaves
  | .thrown .confirm _ => s.command = some s.msg ∧ Confirming req s req.slaves
  | .done => Outcome req s

structure Invariant : Prop where
  single : ∀ i, (s.workers i).pending.length ≤ 1
  here : At req s s.pc

end Invariants

variable {req : Request Msg} {s t : State Msg} {i j : Nat} {w : Worker Msg} {msg : Msg}

lemma Invariant.holds {pc : Pc} (inv : Invariant req s) (here : s.pc = pc) : At req s pc :=
  here ▸ inv.here

lemma invariant_start (req : Request Msg) (msg : Msg) (readOnly : Bool) :
    Invariant req (start msg readOnly) := by
  constructor
  · intro i
    exact zero_le 1
  · refine ⟨fun _ _ _ => ⟨rfl, rfl⟩, rfl, .inl rfl, fun j _ lost => ?_⟩
    cases lost

lemma SentTo.covered {k : Nat} (sent : SentTo req s i) (phase : i = 0 ∨ req.kind.twoPhase)
    (bound : ∀ j < req.slaves, j < i → j ≤ k) : Covered req s k := by
  intro j inside reachable
  obtain ⟨before, after⟩ := sent j inside reachable
  rcases lt_or_ge j i with earlier | later
  · have two : req.kind.twoPhase := phase.resolve_left (by omega)
    have has := before earlier
    rw [two] at has
    exact .inr ⟨has.2, bound j inside earlier⟩
  · exact .inl (after later)

lemma Covered.mono {k : Nat} (covered : Covered req s i) (le : i ≤ k) : Covered req s k :=
  fun j inside reachable => (covered j inside reachable).imp_right fun ⟨settled, bound⟩ =>
    ⟨settled, bound.trans le⟩

lemma allClean_undo (covered : Covered req s s.iSlave) : AllClean req (undo req s) := by
  intro j inside reachable
  have up : (s.workers j).reachable := by
    simp only [undo] at reachable
    split_ifs at reachable
    · exact reachable
    · exact reachable
  simp only [undo]
  rcases covered j inside up with ⟨settled, pending⟩ | ⟨settled, bound⟩
  · split_ifs
    · exact ⟨settled, rfl⟩
    · exact ⟨settled, pending⟩
  · rw [if_pos ⟨inside, bound, up⟩]
    exact ⟨settled, rfl⟩

lemma single_undo (single : ∀ i, (s.workers i).pending.length ≤ 1) (i : Nat) :
    ((undo req s).workers i).pending.length ≤ 1 := by
  simp only [undo]
  split_ifs
  · exact zero_le 1
  · exact single i

lemma outcome_error (clean : AllClean req s) {r : Reply} (answered : s.client = some r)
    (error : r.errCode ≠ errOk) : Outcome req s :=
  .inr ⟨clean, r, answered, error⟩

lemma Invariant.begin (inv : Invariant req s) (pc : s.pc = .waiting)
    (may : MayGo req s) : Invariant req (begin req s) := by
  obtain ⟨clean, responses, command, lost⟩ := inv.holds pc
  unfold MasterNode.begin
  by_cases readOnly : s.readOnly
  · rw [if_pos readOnly]
    exact ⟨inv.single, outcome_error clean rfl (by decide)⟩
  rw [if_neg readOnly]
  split
  · exact ⟨inv.single, outcome_error clean rfl (by decide)⟩
  rename_i msg translated
  split_ifs
  · exact ⟨inv.single, outcome_error clean rfl (by decide)⟩
  refine ⟨inv.single, ?_, responses, rfl, zero_le _, ?_, lost, fun _ j inside unreachable => ?_,
    fun _ => .inl rfl⟩
  · rcases command with fresh | again
    · simp [fresh]
    -- a command that is tried again is translated to itself
    have same : some msg = some s.msg := by
      rw [← translated, translate]
      split_ifs with copy
      · exact may pc (by simp [again]) copy
      · rfl
    simp [again, some_inj.mp same]
  · intro j inside reachable
    exact ⟨fun below => absurd below (not_lt_zero j), fun _ => clean j inside reachable⟩
  · rcases lost j inside unreachable with rfl | two
    · exact .inr ⟨rfl, rfl⟩
    · exact .inl ⟨.inl (zero_le j), two⟩

lemma Agreed.answer {err : UInt8} (agreed : Agreed req s err) :
    ∃ r : Reply, s.responses.head?.join = some r ∧ r.errCode = err ∧
      s.round.length = req.slaves ∧ ∀ stream ∈ s.round, stream = some r := by
  obtain ⟨same, r, round, code⟩ := agreed
  refine ⟨r, ?_, code, by simp [round], fun stream mem => ?_⟩
  · rw [same, round, head?_replicate, if_neg req.positive.ne']
    rfl
  · rw [round] at mem
    exact eq_of_mem_replicate mem

lemma Confirming.outcome (confirming : Confirming req s req.slaves)
    (command : s.command = some s.msg) :
    Outcome req s.answer := by
  rcases confirming with ⟨⟨err, agreed⟩, confirmed, -⟩ | ⟨clean, err, agreed, error⟩
  · obtain ⟨r, answer, -, length, common⟩ := agreed.answer
    refine .inl ⟨s.msg, command, fun j inside reachable => ?_, length, fun stream mem => ?_⟩
    · exact (confirmed j inside reachable).1 inside
    · exact (common stream mem).trans answer.symm
  · obtain ⟨r, answer, code, -, -⟩ := agreed.answer
    exact outcome_error clean answer (code ▸ error)

lemma Invariant.send {what : Message} (inv : Invariant req s) (pc : s.pc = .send what i)
    (taken : next req s = some t) : Invariant req t := by
  have here := inv.holds pc
  simp only [next, pc] at taken
  cases what with
  | command =>
    obtain ⟨command, responses, round, bound, sent, phase, lost, halted⟩ := here
    split_ifs at taken with more
    · cases taken
      refine ⟨inv.single, command, responses, round, more.1, sent, phase, lost, fun halting => ?_⟩
      cases more.2.symm.trans halting
    cases taken
    refine ⟨inv.single, command, zero_le _, phase, fun running => ?_, fun halting => ?_⟩
    · have all : i = req.slaves := by
        by_contra other
        exact more ⟨by omega, running⟩
      subst all
      refine ⟨⟨responses.trans round.symm, ⟨errOk, []⟩, round, by decide, fun _ => rfl⟩, sent, ?_⟩
      exact lost running
    · rcases halted halting with rfl | ⟨first, two⟩
      · exact sent.covered (.inl rfl) fun j _ below => absurd below (not_lt_zero j)
      · exact sent.covered (.inr two) fun j _ earlier => by omega
  | confirm =>
    obtain ⟨command, confirming, halted, bound⟩ := here
    split_ifs at taken with more
    · cases taken
      refine ⟨inv.single, command, confirming, fun halting => ?_, more.1⟩
      cases more.2.symm.trans halting
    cases taken
    have all : i = req.slaves := by
      rcases Bool.eq_false_or_eq_true s.halting with halting | running
      · have := halted halting
        omega
      · by_contra other
        exact more ⟨by omega, running⟩
    subst all
    exact ⟨inv.single, confirming.outcome command⟩

lemma single_update (single : ∀ i, (s.workers i).pending.length ≤ 1) (short : w.pending.length ≤ 1)
    (j : Nat) : (update s.workers i w j).pending.length ≤ 1 := by
  rcases eq_or_ne j i with rfl | other
  · rwa [update_self]
  · rw [update_of_ne other]
    exact single j

lemma Has.short {twoPhase : Bool} (has : Has twoPhase msg w) : w.pending.length ≤ 1 := by
  cases twoPhase
  · rw [has.2]
    exact zero_le 1
  · rw [has.1]
    exact le_rfl

lemma Clean.has_deliver (clean : Clean w) (twoPhase : Bool) (msg : Msg) :
    Has twoPhase msg (w.deliver twoPhase msg) := by
  obtain ⟨settled, pending⟩ := clean
  cases twoPhase
  · exact ⟨by simp [Worker.deliver, settled], pending⟩
  · exact ⟨by simp [Worker.deliver, pending], settled⟩

lemma Has.confirm (has : Has true msg w) : w.confirm.settled = [msg] ∧ w.confirm.pending = [] :=
  ⟨by simp [Worker.confirm, has.1, has.2], rfl⟩

lemma SentTo.all_covered (sent : SentTo req s req.slaves) (two : req.kind.twoPhase)
    (last : req.slaves ≤ i + 1) : Covered req s i :=
  sent.covered (.inr two) fun j inside _ => by omega

lemma allEqual_replicate (n : Nat) (stream : Option Reply) : allEqual (replicate n stream) := by
  induction n with
  | zero => rfl
  | succ n ih =>
    cases n with
    | zero => rfl
    | succ n =>
      simpa [replicate_succ, allEqual] using ih

lemma SentTo.confirmedTo (sent : SentTo req s req.slaves) (two : req.kind.twoPhase) :
    ConfirmedTo req s 0 := by
  intro j inside reachable
  refine ⟨fun below => absurd below (not_lt_zero j), fun _ => ?_⟩
  have has := (sent j inside reachable).1 inside
  rwa [two] at has

lemma SentTo.confirming {err : UInt8} (sent : SentTo req s req.slaves)
    (two : req.kind.twoPhase) (lost : LostLast req s) (agreed : Agreed req s err) :
    Confirming req s 0 :=
  .inl ⟨⟨err, agreed⟩, sent.confirmedTo two, fun j inside down =>
    .inr ((lost j inside down).resolve_right (by simp [two]))⟩

lemma twoPhase_partition (kind : req.kind = .partition) : req.kind.twoPhase := by
  rw [kind]
  rfl

section

variable (inv : Invariant req s)
include inv

lemma Invariant.sendCommand (pc : s.pc = .sending .command i) (taken : next req s = some t) :
    Invariant req t := by
  obtain ⟨command, responses, round, bound, sent, phase, lost, halted⟩ := inv.holds pc
  simp only [next, pc] at taken
  split_ifs at taken with up halting
  · cases taken
    have delivered := ((sent i bound up).2 le_rfl).has_deliver (req.kind.twoPhase) s.msg
    have other (j : Nat) (unreachable : (update s.workers i
        ((s.workers i).receive req.kind.twoPhase s.msg .command) j).reachable = false) : j ≠ i := by
      rintro rfl
      rw [update_self, Worker.receive, Worker.deliver] at unreachable
      split at unreachable <;> cases up.symm.trans unreachable
    refine ⟨single_update inv.single delivered.short, command, responses, round, bound, ?_, ?_, ?_,
      ?_⟩
    · intro j inside reachable
      rcases eq_or_ne j i with rfl | other
      · refine ⟨fun _ => ?_, fun later => absurd later (not_succ_le_self j)⟩
        simpa only [update_self, Worker.receive] using delivered
      · simp only [update_of_ne other] at reachable ⊢
        obtain ⟨before, after⟩ := sent j inside reachable
        exact ⟨fun earlier => before (by omega), fun later => after (by omega)⟩
    · intro j inside unreachable
      simp only [update_of_ne (other j unreachable)] at unreachable
      exact phase j inside unreachable
    · intro running j inside unreachable
      have distinct := other j unreachable
      simp only [update_of_ne distinct] at unreachable
      rcases lost running j inside unreachable with ⟨later | last, two⟩ | ⟨first, start⟩
      · exact .inl ⟨.inl (by omega), two⟩
      · exact .inl ⟨.inr last, two⟩
      · omega
    · intro halting
      obtain ⟨first, two⟩ := halted halting
      exact .inr ⟨by omega, two⟩
  · cases taken
    obtain ⟨rfl, two⟩ := halted halting
    refine ⟨inv.single, command, responses, round, bound, ?_, phase, fun running => ?_,
      fun _ => .inr ⟨le_rfl, two⟩⟩
    · intro j inside reachable
      have other : j ≠ 0 := by
        rintro rfl
        exact up reachable
      exact ⟨fun earlier => by omega, fun _ => (sent j inside reachable).2 (zero_le j)⟩
    · cases running.symm.trans halting
  cases taken
  refine ⟨inv.single, command, responses, round, sent, phase, ?_,
    fun halts => absurd halts halting⟩
  rcases lost (by simpa using halting) i bound (by simpa using up) with ⟨-, two⟩ | ⟨first, -⟩
  · exact .inr two
  · exact .inl first

lemma Invariant.sendConfirm (pc : s.pc = .sending .confirm i) (taken : next req s = some t) :
    Invariant req t := by
  obtain ⟨command, confirming, halted, bound⟩ := inv.holds pc
  simp only [next, pc] at taken
  split_ifs at taken with up halting
  · cases taken
    refine ⟨single_update inv.single (zero_le 1), command, ?_, halted, bound⟩
    rcases confirming with ⟨agreed, confirmed, lost⟩ | ⟨clean, agreed⟩
    · refine .inl ⟨agreed, fun j inside reachable => ?_, fun j inside unreachable => ?_⟩
      · rcases eq_or_ne j i with rfl | other
        · refine ⟨fun _ => ?_, fun later => absurd later (not_succ_le_self j)⟩
          simpa only [update_self, Worker.receive] using
            ((confirmed j inside up).2 le_rfl).confirm
        · simp only [update_of_ne other] at reachable ⊢
          obtain ⟨before, after⟩ := confirmed j inside reachable
          exact ⟨fun earlier => before (by omega), fun later => after (by omega)⟩
      · rcases eq_or_ne j i with rfl | other
        · exact .inl (lt_succ_self j)
        · simp only [update_of_ne other] at unreachable
          exact (lost j inside unreachable).imp_left lt_succ_of_lt
    refine .inr ⟨fun j inside reachable => ?_, agreed⟩
    rcases eq_or_ne j i with rfl | other
    · simp only [update_self, Worker.receive]
      obtain ⟨settled, pending⟩ := clean j inside up
      exact ⟨by simp [Worker.confirm, settled, pending], rfl⟩
    · simp only [update_of_ne other] at reachable ⊢
      exact clean j inside reachable
  · cases taken
    refine ⟨inv.single, command, ?_, halted, bound⟩
    refine confirming.imp_left fun ⟨agreed, confirmed, lost⟩ => ⟨agreed, ?_, ?_⟩
    · intro j inside reachable
      have other : j ≠ i := by
        rintro rfl
        exact up reachable
      obtain ⟨before, after⟩ := confirmed j inside reachable
      exact ⟨fun earlier => before (by omega), fun later => after (by omega)⟩
    · exact fun j inside unreachable => (lost j inside unreachable).imp_left lt_succ_of_lt
  cases taken
  refine ⟨inv.single, command, ?_⟩
  refine confirming.imp_left fun ⟨agreed, confirmed, lost⟩ => ⟨agreed, ?_, ?_⟩
  · have last := (lost i bound (by simpa using up)).resolve_left (lt_irrefl i)
    intro j inside reachable
    have other : j ≠ i := by
      rintro rfl
      exact up reachable
    obtain ⟨before, -⟩ := confirmed j inside reachable
    exact ⟨fun _ => before (by omega), fun later => by omega⟩
  · exact fun j inside _ => .inl inside

lemma Invariant.caught {what : Message} (pc : s.pc = .thrown what i) :
    Invariant req (caught req s i what) := by
  have here := inv.holds pc
  cases what with
  | command =>
    obtain ⟨command, -, -, sent, lost, phase, halted⟩ := here
    simp only [MasterNode.caught]
    split_ifs with halting
    · refine ⟨inv.single, command, zero_le _, lost, fun running => ?_, fun _ => ?_⟩
      · cases running.symm.trans halting
      · have first := halted halting
        exact sent.covered phase fun j _ earlier => by omega
    · have covered : Covered req { s with iSlave := i } i :=
        sent.covered phase fun j _ earlier => earlier.le
      exact ⟨single_undo inv.single, outcome_error (allClean_undo covered) rfl (by decide)⟩
  | confirm =>
    obtain ⟨command, confirming⟩ := here
    exact ⟨inv.single, confirming.outcome command⟩

lemma Invariant.gather (pc : s.pc = .gather i) (taken : next req s = some t) :
    Invariant req t := by
  obtain ⟨command, bound, phase, running, halted⟩ := inv.holds pc
  simp only [next, pc] at taken
  split_ifs at taken with more
  · cases taken
    exact ⟨inv.single, command, more.1, phase, running, halted⟩
  cases taken
  refine ⟨inv.single, command, fun runs => ?_, fun halts => ⟨halted halts, phase⟩⟩
  have all : i = req.slaves := by
    by_contra other
    exact more ⟨by omega, runs⟩
  subst all
  obtain ⟨gathered, sent, lost⟩ := running runs
  refine ⟨gathered, sent, fun j inside unreachable => ?_, rfl⟩
  rcases lost j inside unreachable with ⟨later | last, -⟩ | ⟨first, idle⟩
  · omega
  · exact .inl last
  · omega

lemma Invariant.readFailed (pc : s.pc = .reading i)
    (last : s.halting = false → req.slaves ≤ i + 1 ∧ req.kind.twoPhase) :
    Invariant req (readFailed s i) := by
  obtain ⟨command, -, phase, running, halted⟩ := inv.holds pc
  refine ⟨inv.single, command, fun runs => ?_, fun _ => ⟨?_, phase⟩⟩
  · cases runs
  rcases Bool.eq_false_or_eq_true s.halting with halting | runs
  · exact halted halting
  · obtain ⟨ending, two⟩ := last runs
    exact (running runs).2.1.all_covered two ending

lemma Invariant.push (pc : s.pc = .reading i) {stream : Option Reply}
    (fits : s.halting = false → ∃ r, stream = some r ∧ MayReply req s r) :
    Invariant req (push s i stream) := by
  obtain ⟨command, bound, phase, running, halted⟩ := inv.holds pc
  refine ⟨inv.single, command, bound, phase, fun runs => ?_, fun halting => ?_⟩
  · obtain ⟨⟨same, r', round, -, -⟩, sent, lost⟩ := running runs
    obtain ⟨r, rfl, agrees, consistent, fine⟩ := fits runs
    refine ⟨⟨congrArg (· ++ [some r]) same, r, ?_, consistent, fine⟩, sent, lost⟩
    change s.round ++ [some r] = _
    rw [eq_replicate_of_mem agrees, round, length_replicate, replicate_succ']
  · exact (halted halting).mono (le_succ i)

lemma Invariant.retryCommand (covered : Covered req s s.iSlave)
    (command : s.command = some s.msg) (lost : LostPhase req s) :
    Invariant req (retryCommand req s) := by
  refine ⟨single_undo inv.single, allClean_undo covered, rfl, .inr command, fun j inside down => ?_⟩
  refine lost j inside ?_
  simp only [MasterNode.retryCommand, undo] at down
  split_ifs at down
  · exact down
  · exact down

lemma Invariant.compare (pc : s.pc = .compare) (taken : next req s = some t) :
    Invariant req t := by
  obtain ⟨command, ⟨same, r, round, consistent, fine⟩, sent, lost, all, halted⟩ := inv.holds pc
  simp only [next, pc, some_inj] at taken
  have code : compareResponses s.responses s.halting = r.errCode := by
    rw [compareResponses, same, round, allEqual_replicate, head?_replicate, if_neg req.positive.ne']
    rfl
  rw [code] at taken
  cases taken
  exact ⟨inv.single, command, ⟨same, r, round, rfl⟩, consistent, fine, sent, lost, all, halted⟩

lemma Invariant.decided {err : UInt8} (pc : s.pc = .compared err) :
    Invariant req (decided req s err) := by
  obtain ⟨command, agreed, consistent, fine, sent, lost, all, halted⟩ := inv.holds pc
  have covered (two : req.kind.twoPhase) : Covered req s s.iSlave :=
    sent.all_covered two (by omega)
  unfold MasterNode.decided
  rw [if_neg (fun again => consistent again.1)]
  dsimp only
  split_ifs with special known halting error two
  · -- the error of a partition command that is confirmed nevertheless
    have two := twoPhase_partition special.2.1
    refine ⟨inv.single, command, sent.confirming two lost agreed, fun halts => ?_, zero_le _⟩
    exact absurd special.2.1 (halted halts).2
  · have two := twoPhase_partition special.2.1
    refine ⟨single_undo inv.single, command, .inr ⟨allClean_undo (covered two), err, agreed,
      special.2.2⟩, fun halts => ?_, zero_le _⟩
    exact absurd special.2.1 (halted halts).2
  · have two := (halted halting).1
    refine Invariant.retryCommand ⟨inv.single, ?_⟩ (covered two) command fun _ _ _ => .inr two
    rw [pc]
    exact ⟨command, agreed, consistent, fine, sent, lost, all, halted⟩
  · have two : req.kind.twoPhase := by
      by_contra one
      exact error (fine (by simpa using one))
    exact ⟨single_undo inv.single, outcome_error (allClean_undo (covered two)) rfl error⟩
  · exact ⟨inv.single, command, sent.confirming two lost agreed, fun halts => absurd halts halting,
      zero_le _⟩
  refine ⟨inv.single, ?_⟩
  obtain ⟨r, answer, -, length, common⟩ := agreed.answer
  refine .inl ⟨s.msg, command, fun j inside reachable => ?_, length, fun stream mem => ?_⟩
  · have has := (sent j inside reachable).1 inside
    rwa [Bool.eq_false_iff.mpr two] at has
  · exact (common stream mem).trans answer.symm

lemma Invariant.gathered (pc : s.pc = .gathered) (taken : next req s = some t) :
    Invariant req t := by
  obtain ⟨command, running, halted⟩ := inv.holds pc
  simp only [next, pc] at taken
  split_ifs at taken with halting
  · cases taken
    obtain ⟨covered, lost⟩ := halted halting
    exact inv.retryCommand covered command lost
  · cases taken
    obtain ⟨gathered, sent, lost, all⟩ := running (by simpa using halting)
    exact ⟨inv.single, command, gathered, sent, lost, all, fun halts => absurd halts halting⟩

lemma Invariant.next (may : MayGo req s) (taken : next req s = some t) : Invariant req t := by
  cases pc : s.pc with
  | waiting =>
    simp only [MasterNode.next, pc] at taken
    split_ifs at taken
    cases taken
    exact inv.begin pc may
  | send what i => exact inv.send pc taken
  | sending what i =>
    cases what with
    | command => exact inv.sendCommand pc taken
    | confirm => exact inv.sendConfirm pc taken
  | thrown what i =>
    simp only [MasterNode.next, pc] at taken
    cases taken
    exact inv.caught pc
  | gather i => exact inv.gather pc taken
  | reading i =>
    obtain ⟨-, bound, -, running, -⟩ := inv.holds pc
    simp only [MasterNode.next, pc] at taken
    split_ifs at taken with up
    cases taken
    refine inv.readFailed pc fun runs => ?_
    rcases (running runs).2.2 i bound (by simpa using up) with ⟨later | last, two⟩ | ⟨first, idle⟩
    · omega
    · exact ⟨last, two⟩
    · omega
  | gathered => exact inv.gathered pc taken
  | compare => exact inv.compare pc taken
  | compared err =>
    simp only [MasterNode.next, pc, some_inj] at taken
    cases taken
    exact inv.decided pc
  | done => simp [MasterNode.next, pc] at taken

lemma Invariant.halt (may : MayHalt req s.pc) : Invariant req { s with halting := true } := by
  refine ⟨inv.single, ?_⟩
  have here := inv.here
  generalize s.pc = pc at here may
  cases pc with
  | waiting => exact here
  | send what i =>
    cases what with
    | command =>
      obtain ⟨command, responses, round, bound, sent, phase, -, -⟩ := here
      refine ⟨command, responses, round, bound, sent, phase, nofun, fun _ => ?_⟩
      cases i with
      | zero => exact .inl rfl
      | succ i => exact .inr may
    | confirm =>
      obtain ⟨command, confirming, -, bound⟩ := here
      exact ⟨command, confirming, fun _ => may, bound⟩
  | sending what i =>
    cases what with
    | command =>
      obtain ⟨command, responses, round, bound, sent, phase, -, -⟩ := here
      exact ⟨command, responses, round, bound, sent, phase, nofun, fun _ => may⟩
    | confirm =>
      obtain ⟨command, confirming, -, bound⟩ := here
      exact ⟨command, confirming, fun _ => may, bound⟩
  | thrown what i =>
    cases what with
    | command =>
      obtain ⟨command, responses, round, sent, lost, phase, -⟩ := here
      exact ⟨command, responses, round, sent, lost, phase, fun _ => may.1⟩
    | confirm => exact here
  | gather i | reading i =>
    obtain ⟨command, bound, phase, running, halted⟩ := here
    refine ⟨command, bound, phase, nofun, fun _ => ?_⟩
    rcases Bool.eq_false_or_eq_true s.halting with halting | runs
    · exact halted halting
    · exact (running runs).2.1.all_covered may.2 may.1
  | gathered =>
    obtain ⟨command, running, halted⟩ := here
    refine ⟨command, nofun, fun _ => ?_⟩
    rcases Bool.eq_false_or_eq_true s.halting with halting | runs
    · exact halted halting
    · obtain ⟨-, sent, -, all⟩ := running runs
      have last : req.slaves ≤ s.iSlave + 1 := by omega
      exact ⟨sent.all_covered may last, fun _ _ _ => .inr may⟩
  | compare =>
    obtain ⟨command, gathered, sent, lost, all, -⟩ := here
    exact ⟨command, gathered, sent, lost, all, fun _ => may⟩
  | compared err =>
    obtain ⟨command, agreed, consistent, fine, sent, lost, all, -⟩ := here
    exact ⟨command, agreed, consistent, fine, sent, lost, all, fun _ => may⟩
  | done => exact here

end

/-- The workers after the connection to one of them broke. -/
def cut (workers : Nat → Worker Msg) (i : Nat) : Nat → Worker Msg :=
  Function.update workers i { workers i with reachable := false }

lemma forall_reachable_cut {n : Nat} {workers : Nat → Worker Msg}
    {P : Nat → Worker Msg → Prop} (i : Nat)
    (holds : ∀ j < n, (workers j).reachable → P j (workers j)) :
    ∀ j < n, (cut workers i j).reachable → P j (cut workers i j) := by
  intro j inside reachable
  rcases eq_or_ne j i with rfl | other
  · simp [cut] at reachable
  · rw [cut, update_of_ne other] at reachable ⊢
    exact holds j inside reachable

lemma forall_unreachable_cut {n : Nat} {workers : Nat → Worker Msg} {P : Nat → Prop} {i : Nat}
    (holds : ∀ j < n, (workers j).reachable = false → P j) (new : P i) :
    ∀ j < n, (cut workers i j).reachable = false → P j := by
  intro j inside unreachable
  rcases eq_or_ne j i with rfl | other
  · exact new
  · rw [cut, update_of_ne other] at unreachable
    exact holds j inside unreachable

lemma AllClean.cut (clean : AllClean req s) (i : Nat) :
    AllClean req { s with workers := cut s.workers i } :=
  forall_reachable_cut i clean

lemma SentTo.cut {k : Nat} (sent : SentTo req s k) (i : Nat) :
    SentTo req { s with workers := cut s.workers i } k :=
  forall_reachable_cut (P := fun j w => (j < k → Has req.kind.twoPhase s.msg w) ∧ (k ≤ j → Clean w))
    i sent

lemma Covered.cut {k : Nat} (covered : Covered req s k) (i : Nat) :
    Covered req { s with workers := cut s.workers i } k :=
  forall_reachable_cut (P := fun j w => Clean w ∨ w.settled = [] ∧ j ≤ k) i covered

lemma ConfirmedTo.cut {k : Nat} (confirmed : ConfirmedTo req s k) (i : Nat) :
    ConfirmedTo req { s with workers := cut s.workers i } k :=
  forall_reachable_cut (P := fun j w => (j < k → w.settled = [s.msg] ∧ w.pending = []) ∧
    (k ≤ j → Has true s.msg w)) i confirmed

lemma Confirming.cut {k : Nat} (confirming : Confirming req s k)
    (may : i < k ∨ req.slaves ≤ i + 1) :
    Confirming req { s with workers := cut s.workers i } k := by
  rcases confirming with ⟨agreed, confirmed, lost⟩ | ⟨clean, agreed⟩
  · exact .inl ⟨agreed, confirmed.cut i, forall_unreachable_cut lost may⟩
  · exact .inr ⟨clean.cut i, agreed⟩

lemma Outcome.cut (outcome : Outcome req s) (i : Nat) :
    Outcome req { s with workers := cut s.workers i } := by
  rcases outcome with ⟨msg, command, settled, common⟩ | ⟨clean, error⟩
  · refine .inl ⟨msg, command, ?_, common⟩
    exact forall_reachable_cut (P := fun _ w => w.settled = [msg] ∧ w.pending = []) i settled
  · exact .inr ⟨forall_reachable_cut (P := fun _ => Clean) i clean, error⟩

lemma Invariant.lose (inv : Invariant req s) (may : MayLose req i s.pc) :
    Invariant req { s with workers := cut s.workers i } := by
  refine ⟨single_update inv.single (inv.single i), ?_⟩
  have here := inv.here
  generalize s.pc = pc at here may
  cases pc with
  | waiting =>
    obtain ⟨clean, responses, command, lost⟩ := here
    exact ⟨clean.cut i, responses, command, forall_unreachable_cut lost may⟩
  | send what k | sending what k =>
    cases what with
    | command =>
      obtain ⟨command, responses, round, bound, sent, phase, lost, halted⟩ := here
      refine ⟨command, responses, round, bound, sent.cut i,
        forall_unreachable_cut phase ?_, fun runs => forall_unreachable_cut (lost runs) ?_, halted⟩
      · exact may.imp And.left And.right
      · exact may.symm
    | confirm =>
      obtain ⟨command, confirming, halted, bound⟩ := here
      exact ⟨command, confirming.cut may, halted, bound⟩
  | thrown what k =>
    cases what with
    | command =>
      obtain ⟨command, responses, round, sent, lost, phase, halted⟩ := here
      exact ⟨command, responses, round, sent.cut i, forall_unreachable_cut lost may, phase, halted⟩
    | confirm =>
      obtain ⟨command, confirming⟩ := here
      exact ⟨command, confirming.cut (by omega)⟩
  | gather k | reading k =>
    obtain ⟨command, bound, phase, running, halted⟩ := here
    refine ⟨command, bound, forall_unreachable_cut phase (.inr may.2), fun runs => ?_,
      fun halting => (halted halting).cut i⟩
    obtain ⟨gathered, sent, lost⟩ := running runs
    exact ⟨gathered, sent.cut i, forall_unreachable_cut lost (.inl ⟨.inr may.1, may.2⟩)⟩
  | gathered =>
    obtain ⟨command, running, halted⟩ := here
    refine ⟨command, fun runs => ?_, fun halting => ?_⟩
    · obtain ⟨gathered, sent, lost, all⟩ := running runs
      exact ⟨gathered, sent.cut i, forall_unreachable_cut lost (.inl may.1), all⟩
    · obtain ⟨covered, lost⟩ := halted halting
      exact ⟨covered.cut i, forall_unreachable_cut lost (.inr may.2)⟩
  | compare =>
    obtain ⟨command, gathered, sent, lost, all, halted⟩ := here
    exact ⟨command, gathered, sent.cut i, forall_unreachable_cut lost may, all, halted⟩
  | compared err =>
    obtain ⟨command, agreed, consistent, fine, sent, lost, all, halted⟩ := here
    exact ⟨command, agreed, consistent, fine, sent.cut i,
      forall_unreachable_cut lost may, all, halted⟩
  | done =>
    exact here.cut i

lemma Invariant.step {a : Action} (inv : Invariant req s) (careful : Careful req s a)
    (taken : step req s a = some t) : Invariant req t := by
  cases a with
  | go => exact inv.next careful taken
  | reply r =>
    simp only [MasterNode.step] at taken
    split at taken
    · rename_i i pc
      split_ifs at taken
      cases taken
      exact inv.push pc fun _ => ⟨r, rfl, careful⟩
    · cases taken
  | noReply =>
    simp only [MasterNode.step] at taken
    split at taken
    · rename_i i pc
      simp only [Careful, MayMiss, pc] at careful
      split_ifs at taken with halting
      · cases taken
        refine inv.push pc fun runs => ?_
        cases runs.symm.trans halting
      · cases taken
        exact inv.readFailed pc fun _ => careful
    · cases taken
  | halt =>
    cases taken
    exact inv.halt careful
  | resume =>
    simp only [MasterNode.step] at taken
    split_ifs at taken with pc
    cases taken
    exact ⟨inv.single, pc.symm ▸ inv.holds pc⟩
  | timeout =>
    simp only [MasterNode.step] at taken
    split_ifs at taken with waits
    cases taken
    exact ⟨inv.single, waits.1.symm ▸ inv.holds waits.1⟩
  | lose i =>
    cases taken
    exact inv.lose careful

lemma Invariant.appliesOnce (inv : Invariant req s) : AppliesOnce req s := by
  refine ⟨inv.single, fun pc => ?_, inv.holds⟩
  obtain ⟨-, ⟨same, -⟩, -⟩ := inv.holds pc
  exact same

/-- As long as the workers' replies agree, a halt is noticed only where the undo reaches every
worker that has the command, and a command that is tried again stays the same: no worker executes it
twice without an undo, replies are compared within one round, and the request ends with the command
confirmed everywhere and the common reply, or undone everywhere and an error. -/
theorem command_applied_at_most_once {msg : Msg} {readOnly : Bool}
    (reached : Runs.Reaches (step req) (Careful req) (start msg readOnly) s) : AppliesOnce req s :=
  (reached.invariant (invariant_start req msg readOnly) fun _ _ _ inv careful taken =>
    inv.step careful taken).appliesOnce

instance (req : Request Msg) (pc : Pc) : Decidable (MayHalt req pc) :=
  match pc with
  | .waiting | .done | .send .command 0 | .thrown .confirm _ => instDecidableTrue
  | .send .command (_ + 1) | .sending .command _ | .thrown .command _ | .gather _ | .reading _
  | .compare | .compared _ => instDecidableAnd
  | .gathered => instDecidableEqBool ..
  | .send .confirm _ | .sending .confirm _ => Nat.decLe ..

instance (req : Request Msg) (i : Nat) (pc : Pc) : Decidable (MayLose req i pc) :=
  match pc with
  | .waiting | .send .command _ | .sending .command _ | .compare | .compared _ | .send .confirm _
  | .sending .confirm _ | .thrown .command _ => instDecidableOr
  | .gather _ | .reading _ | .gathered => instDecidableAnd
  | .thrown .confirm _ | .done => instDecidableTrue

instance (req : Request Msg) (s : State Msg) : Decidable (MayMiss req s) :=
  match pc : s.pc with
  | .reading i => decidable_of_iff (req.slaves ≤ i + 1 ∧ req.kind.twoPhase) (by simp [MayMiss, pc])
  | .waiting | .send _ _ | .sending _ _ | .thrown _ _ | .gather _ | .gathered | .compare
  | .compared _ | .done => isTrue (by simp [MayMiss, pc])

instance [DecidableEq Msg] (req : Request Msg) (s : State Msg) (a : Action) :
    Decidable (Careful req s a) :=
  match a with
  | .go => inferInstanceAs (Decidable (_ → _ → _ → _))
  | .reply _ => instDecidableAnd
  | .noReply => inferInstanceAs (Decidable (MayMiss req s))
  | .halt => inferInstanceAs (Decidable (MayHalt req s.pc))
  | .lose i => inferInstanceAs (Decidable (MayLose req i s.pc))
  | .resume | .timeout => instDecidableTrue

def twoWorkers : Request Nat := ⟨2, by decide, .other, some, false⟩

/-- The second worker does not reply; after the halt the command is tried again and confirmed. -/
def retriedRun : List Action :=
  [.go, .go, .go, .go, .go, .go, .go, .reply ⟨0, []⟩, .go, .noReply, .go, .resume] ++
    [.go, .go, .go, .go, .go, .go, .go, .reply ⟨0, []⟩, .go, .reply ⟨0, []⟩, .go, .go, .go] ++
    [.go, .go, .go, .go, .go, .go]

theorem retriedRun_applies_once :
    ∃ s, Runs.execute (step twoWorkers) (Careful twoWorkers) (start 7 false) retriedRun = some s ∧
      s.pc = .done ∧ (s.workers 1).settled = [7] ∧ AppliesOnce twoWorkers s := by
  have runs : ((Runs.execute (step twoWorkers) (Careful twoWorkers) (start 7 false)
      retriedRun).map fun s => (s.pc, (s.workers 1).settled)) = some (.done, [7]) := by
    decide +kernel
  obtain ⟨s, done, facts⟩ := map_eq_some_iff.mp runs
  obtain ⟨pc, settled⟩ := Prod.mk.inj facts
  exact ⟨s, done, pc, settled, command_applied_at_most_once (Runs.reaches_of_execute done)⟩

/-- The two workers reply differently. -/
def differingRun : List Action :=
  [.go, .go, .go, .go, .go, .go, .go, .reply ⟨0, []⟩, .go, .reply ⟨1, []⟩, .go, .go, .go, .go, .go,
    .go]

theorem differing_replies_repeat_command :
    ∃ s, Runs.Reaches (step twoWorkers) (fun _ _ => True) (start 7 false) s ∧
      (s.workers 0).pending = [7, 7] ∧ ¬ AppliesOnce twoWorkers s := by
  have runs : ((Runs.execute (step twoWorkers) (fun _ _ => True) (start 7 false)
      differingRun).map fun s => (s.workers 0).pending) = some [7, 7] := by decide +kernel
  obtain ⟨s, done, twice⟩ := map_eq_some_iff.mp runs
  refine ⟨s, Runs.reaches_of_execute done, twice, fun once => ?_⟩
  have single := once.single 0
  rw [twice] at single
  exact absurd single (by decide)

end MasterNode
