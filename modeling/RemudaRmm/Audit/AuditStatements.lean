import RemudaRmm.Foundation.Runs
import RemudaRmm.Audit.AuditChain

/-! The audit log under READ COMMITTED, a statement at a time: transactions that insert rows and seal them as they
commit, retention, and the sweeps that compare the chain with its last anchor and write the next one. -/
namespace RemudaRmm.Audit
open Foundation Function

def youngSeqs (t : Tables) (org : Option Uuid) (cutoff : Timestamp) : List ℕ :=
  ((walk t.auditLogChain org).filter fun c => ∃ a ∈ t.auditLogs, a.id = c.auditId ∧ cutoff.le a.timestamp).map
    ChainEntry.chainSeq

/-- `COALESCE(MIN(…), MAX(…) + 1)`: below it lies what is deleted. -/
def pruneBound (t : Tables) (org : Option Uuid) (cutoff : Timestamp) : Option ℕ :=
  (youngSeqs t org cutoff).min?.or (((walk t.auditLogChain org).map ChainEntry.chainSeq).max?.map (· + 1))

def chainPrefix (t : Tables) (org : Option Uuid) (cutoff : Timestamp) : List ChainEntry :=
  (pruneBound t org cutoff).elim [] fun bound => (walk t.auditLogChain org).filter (·.chainSeq < bound)

def unsealedOld (t : Tables) (org : Option Uuid) (cutoff : Timestamp) : List Uuid :=
  (t.auditLogs.filter fun a =>
    a.orgId = org ∧ cutoff.le a.timestamp = false ∧ ∀ c ∈ t.auditLogChain, c.auditId ≠ a.id).map AuditRow.id

def doomedIds (t : Tables) (doomed : List ChainEntry) : List Uuid :=
  (t.auditLogChain.filter (· ∈ doomed)).map ChainEntry.auditId

/-- `ON DELETE CASCADE` takes the entries along. -/
def Tables.deleteRows (t : Tables) (ids : List Uuid) : Tables :=
  ⟨t.auditLogs.filter (·.id ∉ ids), t.auditLogChain.filter (·.auditId ∉ ids)⟩

def Tables.adding (t : Tables) (rows : List (AuditRow × ChainEntry)) : Tables :=
  ⟨t.auditLogs ++ rows.map Prod.fst, t.auditLogChain ++ rows.map Prod.snd⟩

structure Head where
  chainSeq : ℕ
  chainChecksum : Option Text

structure Anchor where
  anchorSeq : ℕ
  orgId : Option Uuid
  head : Head
  entryCount : ℕ
  signed : Bool

/-- `COALESCE(v_head_seq, 0)` stands for an empty chain. -/
def liveHead (chain : List ChainEntry) (org : Option Uuid) : Head :=
  (walk chain org).getLast?.elim ⟨0, none⟩ fun c => ⟨c.chainSeq, some c.chainChecksum⟩

def liveCount (chain : List ChainEntry) (org : Option Uuid) : ℕ := (walk chain org).length

def checksumAt (chain : List ChainEntry) (org : Option Uuid) (seq : ℕ) : Option Text :=
  (chain.find? fun c => c.chainSeq = seq ∧ c.orgId = org).map ChainEntry.chainChecksum

/-- `ORDER BY anchor_seq DESC LIMIT 1`. -/
def latestAnchor (anchors : List Anchor) (org : Option Uuid) : Option Anchor :=
  (anchors.filter (·.orgId = org)).foldl
    (fun best a => if best.all (·.anchorSeq ≤ a.anchorSeq) then some a else best) none

inductive Reason where
  | noAnchor | countShrank | seqRegressed | anchoredHeadMissing | checksumDiverged
  deriving DecidableEq

def TAMPER_REASONS : List Reason := [.seqRegressed, .anchoredHeadMissing, .checksumDiverged]

/-- The row of `audit_chain_verify_anchor`: the anchor and what was read of the live chain. -/
structure Divergence where
  reason : Reason
  anchor : Option Anchor
  live : Option (Head × ℕ)

def divergence (a : Anchor) (live : Head) (count : ℕ) (found : Option Text) : Option Reason :=
  if live.chainSeq = 0 ∧ count = 0 ∧ (0 < a.head.chainSeq ∨ 0 < a.entryCount) then some .countShrank
  else if live.chainSeq < a.head.chainSeq then some .seqRegressed
  else if 0 < a.head.chainSeq ∧ found = none then some .anchoredHeadMissing
  else if found ≠ none ∧ a.head.chainChecksum ≠ none ∧ found ≠ a.head.chainChecksum then some .checksumDiverged
  else if count < a.entryCount ∧ found ≠ none then some .countShrank
  else none

/-- Where a transaction that inserts rows is: the triggers of its rows are run at its commit, one after the other, and
each takes the lock, reads the head and inserts the entry. -/
inductive Stage where
  | writing
  | sealing
  | locked
  | headRead (prev : Option Text)
  deriving DecidableEq

structure Writer where
  stage : Stage := .writing
  done : List (AuditRow × ChainEntry) := []
  rows : List AuditRow := []

/-- The rows whose deletion is not committed yet, by their entries, and those of the second statement by their ids. -/
inductive Prune where
  | idle
  | selected (org : Uuid) (cutoff : Timestamp) (doomed : List ChainEntry)
  | swept (org : Uuid) (cutoff : Timestamp) (doomed : List ChainEntry) (unsealed : List Uuid)
  deriving DecidableEq

/-- The next statement of `anchorAndVerifyOrg`, with what the statements before it have read. -/
inductive SweepStage where
  | verifyAnchor
  | verifyHead (a : Anchor)
  | verifyCount (a : Anchor) (live : Head)
  | verifySeq (a : Anchor) (live : Head) (count : ℕ)
  | readHead
  | readCount (read : Head)
  | anchorHead (expected : ℕ × ℕ)
  | anchorCount (expected : ℕ × ℕ) (head : Head)
  | anchorInsert (expected : ℕ × ℕ) (head : Head) (count : ℕ)
  | anchorCommit (a : Anchor)
  | finished

structure Sweep where
  org : Option Uuid
  stage : SweepStage

/-- Whose row holds an id in the index of the primary key. -/
inductive Holder where
  | committed
  | writer (i : ℕ)
  deriving DecidableEq

/-- What is committed, the locks, sequences and transactions under way, and a record of deletions and reports. -/
structure World where
  tables : Tables := ⟨[], []⟩
  anchors : List Anchor := []
  idIndex : Uuid → Option Holder := fun _ => none
  locks : ℤ → Option ℕ := fun _ => none
  lastChainSeq : ℕ := 0
  lastAnchorSeq : ℕ := 0
  writers : ℕ → Writer := fun _ => {}
  prunes : ℕ → Prune := fun _ => .idle
  sweeps : List Sweep := []
  pruned : List (AuditRow × Timestamp) := []
  reports : List Divergence := []

structure AuditPlatform where
  hash : IdealHash
  zone : Moment → Moment
  hashtext : Text → ℤ
  signing : Bool

def AuditPlatform.lockKey (platform : AuditPlatform) (org : Option Uuid) : ℤ :=
  platform.hashtext (org.elim "NULL".toList Uuid.text)

namespace World
variable (platform : AuditPlatform) (w : World)

def view (i : ℕ) : Tables := w.tables.adding (w.writers i).done

def setWriter (i : ℕ) (x : Writer) : World := { w with writers := update w.writers i x }

/-- An id that another row holds makes the statement wait or fail. -/
def insertRow (i : ℕ) (a : AuditRow) : World :=
  if (w.writers i).stage = .writing ∧ w.idIndex a.id = none then
    { w.setWriter i { w.writers i with rows := (w.writers i).rows ++ [a] } with
      idIndex := update w.idIndex a.id (some (.writer i)) }
  else w

def endWriter (i : ℕ) : World :=
  { w.setWriter i {} with locks := fun key => if w.locks key = some i then none else w.locks key }

def rollback (i : ℕ) : World :=
  { w.endWriter i with idIndex := fun id => if w.idIndex id = some (.writer i) then none else w.idIndex id }

def commitWriter (i : ℕ) : World :=
  { w.endWriter i with
    tables := w.view i
    idIndex := fun id => if w.idIndex id = some (.writer i) then some .committed else w.idIndex id }

/-- The next statement of a commit: `audit_log_seal_one` for each row. -/
def advanceWriter (i : ℕ) : World :=
  match (w.writers i).stage, (w.writers i).rows with
  | .writing, _ => w.setWriter i { w.writers i with stage := .sealing }
  | .sealing, [] => w.commitWriter i
  | .sealing, a :: _ =>
    if w.locks (platform.lockKey a.orgId) = none ∨ w.locks (platform.lockKey a.orgId) = some i then
      { w.setWriter i { w.writers i with stage := .locked } with
        locks := update w.locks (platform.lockKey a.orgId) (some i) }
    else w
  | .locked, a :: _ =>
    w.setWriter i { w.writers i with stage := .headRead (headChecksum (w.view i).auditLogChain a.orgId) }
  | .headRead prev, a :: rest =>
    match entryOf platform.hash platform.zone (w.lastChainSeq + 1) a prev with
    | some e =>
      if Admits (w.view i).auditLogChain e then
        { w.setWriter i ⟨.sealing, (w.writers i).done ++ [(a, e)], rest⟩ with lastChainSeq := w.lastChainSeq + 1 }
      else w.rollback i
    | none => w.rollback i
  | _, [] => w

def setPrune (i : ℕ) (p : Prune) : World := { w with prunes := update w.prunes i p }

def startPrune (i : ℕ) (org : Uuid) (cutoff : Timestamp) : World :=
  if w.prunes i = .idle then w.setPrune i (.selected org cutoff (chainPrefix w.tables (some org) cutoff)) else w

def commitPrune (i : ℕ) (cutoff : Timestamp) (ids : List Uuid) : World :=
  { w.setPrune i .idle with
    tables := w.tables.deleteRows ids
    idIndex := fun id => if id ∈ ids ∧ w.idIndex id = some .committed then none else w.idIndex id
    pruned := w.pruned ++ (w.tables.auditLogs.filter (·.id ∈ ids)).map fun a => (a, cutoff) }

def advancePrune (i : ℕ) : World :=
  match w.prunes i with
  | .idle => w
  | .selected org cutoff doomed =>
    w.setPrune i (.swept org cutoff doomed
      (unsealedOld (w.tables.deleteRows (doomedIds w.tables doomed)) (some org) cutoff))
  | .swept _ cutoff doomed unsealed => w.commitPrune i cutoff (doomedIds w.tables doomed ++ unsealed)

def setSweep (n : ℕ) (org : Option Uuid) (stage : SweepStage) : World :=
  { w with sweeps := w.sweeps.set n ⟨org, stage⟩ }

def report (reason : Option Reason) (anchor : Option Anchor) (live : Option (Head × ℕ)) : World :=
  { w with reports := w.reports ++ reason.toList.map fun r => ⟨r, anchor, live⟩ }

def advanceSweep (n : ℕ) : World :=
  match w.sweeps[n]? with
  | none => w
  | some ⟨org, stage⟩ =>
    match stage with
    | .verifyAnchor =>
      match latestAnchor w.anchors org with
      | none => (w.setSweep n org .readHead).report (some .noAnchor) none none
      | some a => w.setSweep n org (.verifyHead a)
    | .verifyHead a => w.setSweep n org (.verifyCount a (liveHead w.tables.auditLogChain org))
    | .verifyCount a live => w.setSweep n org (.verifySeq a live (liveCount w.tables.auditLogChain org))
    | .verifySeq a live count =>
      (w.setSweep n org .readHead).report
        (divergence a live count (checksumAt w.tables.auditLogChain org a.head.chainSeq)) (some a)
        (some (live, count))
    | .readHead => w.setSweep n org (.readCount (liveHead w.tables.auditLogChain org))
    | .readCount read => w.setSweep n org (.anchorHead (read.chainSeq, liveCount w.tables.auditLogChain org))
    | .anchorHead expected => w.setSweep n org (.anchorCount expected (liveHead w.tables.auditLogChain org))
    | .anchorCount expected head =>
      w.setSweep n org (.anchorInsert expected head (liveCount w.tables.auditLogChain org))
    | .anchorInsert expected head count =>
      { w.setSweep n org (.anchorCommit
          ⟨w.lastAnchorSeq + 1, org, head, count, platform.signing && (head.chainSeq, count) = expected⟩) with
        lastAnchorSeq := w.lastAnchorSeq + 1 }
    | .anchorCommit a => { w.setSweep n org .finished with anchors := w.anchors ++ [a] }
    | .finished => w

def failSweep (n : ℕ) : World := (w.sweeps[n]?).elim w fun s => w.setSweep n s.org .finished

end World

inductive AuditEvent where
  | insertRow (i : ℕ) (a : AuditRow)
  | advanceWriter (i : ℕ)
  | rollback (i : ℕ)
  | startPrune (i : ℕ) (org : Uuid) (cutoff : Timestamp)
  | advancePrune (i : ℕ)
  | rollbackPrune (i : ℕ)
  | startSweep (org : Option Uuid)
  | advanceSweep (n : ℕ)
  | failSweep (n : ℕ)

def auditStep (platform : AuditPlatform) (w : World) : AuditEvent → World
  | .insertRow i a => w.insertRow i a
  | .advanceWriter i => w.advanceWriter platform i
  | .rollback i => w.rollback i
  | .startPrune i org cutoff => w.startPrune i org cutoff
  | .advancePrune i => w.advancePrune i
  | .rollbackPrune i => w.setPrune i .idle
  | .startSweep org => { w with sweeps := w.sweeps ++ [⟨org, .verifyAnchor⟩] }
  | .advanceSweep n => w.advanceSweep platform n
  | .failSweep n => w.failSweep n

end RemudaRmm.Audit
