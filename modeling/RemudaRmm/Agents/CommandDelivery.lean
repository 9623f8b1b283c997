import RemudaRmm.Agents.DeviceCommands

/-! A command under every interleaving of its writers: a row that has ended never changes again, claims exclude
each other, and one result is post-processed. -/
namespace RemudaRmm.Agents
open Foundation Function Option
variable {validate : CriticalValidation}

/-- The writer has a claim under which it still sends or gives back. -/
def CommandStage.Delivering : CommandStage → Prop
  | .sending _ | .releasing => True
  | _ => False

/-- What one statement of a writer can do to the command, to the restore job and to the writer. -/
inductive CommandMove (t : ℕ) (d : CommandDb) (p : CommandProc) : CommandDb → CommandProc → Prop
  | moved (stage : CommandStage) (kept : stage.Delivering → p.stage.Delivering) : CommandMove t d p d { p with stage }
  | inserted {o : ExecuteOptions} {hasAgent : Bool} (now : ℕ) (stage : CommandStage)
      (called : p.call = .executeCommand o) (inserting : p.stage = .inserting hasAgent) (empty : d.command = none)
      (rest : ¬stage.Delivering) : CommandMove t d p { d with command := some (o.inserted now) } { p with stage }
  | claimed {c : DeviceCommand} (now : ℕ) (stage : CommandStage) (found : d.command = some c)
      (pending : c.status = .pending) :
      CommandMove t d p { d with command := some (c.claimed now) } { p with stage, claim := some now }
  | released {c : DeviceCommand} {stamp : ℕ} (stage : CommandStage) (found : d.command = some c)
      (sent : c.status = .sent) (held : p.claim = some stamp) (rest : ¬stage.Delivering) :
      CommandMove t d p { d with command := some c.released } { p with stage, claim := none }
  | unclaimed (stage : CommandStage) (rest : ¬stage.Delivering) : CommandMove t d p d { p with stage, claim := none }
  | ended (c : DeviceCommand) (status : CommandStatus) (now : ℕ) (result : StoredCommandResult)
      (stage : CommandStage) (found : d.command = some c) (accepted : c.Open)
      (final : status = .completed ∨ status = .failed) (rest : ¬stage.Delivering) :
      CommandMove t d p { d with command := some (c.settled status now result) } { p with stage }
  | processed (c : DeviceCommand) (status : CommandStatus) (now : ℕ) (result : StoredCommandResult)
      (stage : CommandStage) (found : d.command = some c) (accepted : c.Open)
      (final : status = .completed ∨ status = .failed) (rest : ¬stage.Delivering) :
      CommandMove t d p { d with command := some (c.settled status now result) }
        { p with stage, postProcessed := true }
  | restored {job after : RestoreJob} (stage : CommandStage) (found : d.restoreJob = some job)
      (mutable : isMutableRestoreStatus job.status = true) (final : isMutableRestoreStatus after.status = false)
      (rest : ¬stage.Delivering) :
      CommandMove t d p { d with restoreJob := some after, restoredFor := t :: d.restoredFor } { p with stage }
  | propagated (stage : CommandStage) (rest : ¬stage.Delivering) :
      CommandMove t d p { d with restoreJob := d.restoreJob.map propagateTimedOut } { p with stage }

section Moves
variable {t : ℕ} {d : CommandDb} {p : CommandProc}
variable {action : CommandAction} {x : CommandDb × CommandProc} {validate : CriticalValidation}

theorem CommandMove.rest (stage : CommandStage) (rest : ¬stage.Delivering) : CommandMove t d p d { p with stage } :=
  .moved stage fun delivering => absurd delivering rest

theorem claimStatement_moves (role : Option AgentCredentialRole) (now : ℕ) (won : CommandStage) {lost : CommandStage}
    (rest : ¬lost.Delivering) :
    CommandMove t d p (claimStatement d p role now won lost).1 (claimStatement d p role now won lost).2 := by
  unfold claimStatement
  split
  case h_1 c found =>
    split_ifs with pending
    · exact .claimed now won found pending.1
    · exact .rest lost rest
  case h_2 => exact .rest lost rest

theorem releaseStatement_moves {stage : CommandStage} (rest : ¬stage.Delivering) :
    CommandMove t d p (releaseStatement d p stage).1 (releaseStatement d p stage).2 := by
  unfold releaseStatement
  split
  case h_1 c stamp found held =>
    split_ifs with own
    · exact .released stage found own.1 held rest
    · exact .unclaimed stage rest
  case h_2 => exact .unclaimed stage rest

theorem timeoutStatement_moves (now : ℕ) (error : String) (timedOutBy : Option String)
    {hit : DeviceCommand → CommandStage} {miss : CommandStage} (first : ∀ c, ¬(hit c).Delivering)
    (second : ¬miss.Delivering) : CommandMove t d p (timeoutStatement d p now error timedOutBy hit miss).1
      (timeoutStatement d p now error timedOutBy hit miss).2 := by
  unfold timeoutStatement
  split
  case h_1 c found =>
    split_ifs with accepted
    · exact .ended c _ now _ (hit c) found accepted (.inr rfl) (first c)
    · exact .rest miss second
  case h_2 => exact .rest miss second

theorem stored_final (s : ResultStatus) : s.stored = .completed ∨ s.stored = .failed := by
  cases s
  · exact .inl rfl
  · exact .inr rfl
  · exact .inr rfl

theorem resultStatement_moves (validate : CriticalValidation) (role : AgentCredentialRole) (now : ℕ) (type : String)
    (r : AgentCommandResult) : CommandMove t d p (resultStatement d p validate role now type r).1
      (resultStatement d p validate role now type r).2 := by
  unfold resultStatement
  dsimp only
  split
  case h_1 c found =>
    split_ifs with accepted valid
    · exact .processed c _ now _ _ found accepted.2 (stored_final _) id
    · exact .ended c _ now _ .done found accepted.2 (stored_final _) id
    · exact .rest .done id
  case h_2 => exact .rest .done id

theorem restoreRead_moves (submitted : RestoreJob → String × AgentCommandResult) :
    CommandMove t d p (restoreRead d p submitted).1 (restoreRead d p submitted).2 := by
  unfold restoreRead
  split
  case h_1 job found => split_ifs <;> exact .rest _ id
  case h_2 => exact .rest _ id

theorem isMutable_deriveRestoreStatus (r : AgentCommandResult) :
    isMutableRestoreStatus (deriveRestoreStatus r) = false := by
  unfold deriveRestoreStatus
  split_ifs <;> rfl

theorem restoreStatement_moves (type : String) (r : AgentCommandResult) :
    CommandMove t d p (restoreStatement d p t type r).1 (restoreStatement d p t type r).2 := by
  unfold restoreStatement
  split
  case h_1 job found =>
    split_ifs with mutable
    · exact .restored .done found mutable (isMutable_deriveRestoreStatus r) id
    · exact .rest .done id
  case h_2 => exact .rest .done id

theorem waitStatement_moves (timeoutMs startTime now : ℕ) :
    CommandMove t d p (waitStatement d p timeoutMs startTime now).1 (waitStatement d p timeoutMs startTime now).2 := by
  unfold waitStatement
  split_ifs
  · split
    case h_1 => exact .rest _ id
    case h_2 c found => split_ifs <;> exact .rest _ id
  · exact timeoutStatement_moves now _ none (fun c => id) id

theorem precheck_rests (o : ExecuteOptions) (found : Option (DeviceStatus × Bool)) (connected : Bool) :
    ¬(o.precheck found connected).Delivering := by
  unfold ExecuteOptions.precheck
  split
  · exact id
  · split_ifs <;> exact id

theorem deliverAct_moves (acted : deliverAct action d p = some x) : CommandMove t d p x.1 x.2 := by
  unfold deliverAct at acted
  split at acted
  case h_1 now fresh =>
    cases acted
    exact claimStatement_moves none now (.sending 0) id
  case h_2 attempt ok sending =>
    cases acted
    exact .moved _ fun _ => by rw [sending]; trivial
  case h_3 now releasing =>
    cases acted
    exact releaseStatement_moves id
  case h_4 => cases acted

theorem executeCommandAct_moves {o : ExecuteOptions} (called : p.call = .executeCommand o)
    (acted : executeCommandAct o action d p = some x) : CommandMove t d p x.1 x.2 := by
  unfold executeCommandAct at acted
  split at acted
  case h_1 found connected fresh =>
    cases acted
    exact .rest _ (precheck_rests o found connected)
  case h_2 hasAgent now inserting =>
    split_ifs at acted with empty dispatched <;> cases acted <;> exact .inserted now _ called inserting empty id
  case h_3 now claiming =>
    cases acted
    exact claimStatement_moves none now (.sending 0) id
  case h_4 attempt ok sending =>
    cases acted
    exact .moved _ fun _ => by rw [sending]; trivial
  case h_5 now releasing =>
    cases acted
    exact releaseStatement_moves (by split_ifs <;> exact id)
  case h_6 now awaiting =>
    cases acted
    exact .rest _ id
  case h_7 startTime now waiting =>
    cases acted
    exact waitStatement_moves o.timeoutMs startTime now
  case h_8 wasPending now expired =>
    cases acted
    exact .rest _ id
  case h_9 => cases acted

theorem waitAct_moves {timeoutMs : ℕ} (acted : waitAct timeoutMs action d p = some x) : CommandMove t d p x.1 x.2 := by
  unfold waitAct at acted
  split at acted
  case h_1 now fresh =>
    cases acted
    exact .rest _ id
  case h_2 startTime now waiting =>
    cases acted
    exact waitStatement_moves timeoutMs startTime now
  case h_3 wasPending now expired =>
    cases acted
    exact .rest _ id
  case h_4 => cases acted

theorem pollAct_moves {role : AgentCredentialRole} (acted : pollAct role action d p = some x) :
    CommandMove t d p x.1 x.2 := by
  unfold pollAct at acted
  split at acted
  case h_1 now fresh =>
    cases acted
    exact claimStatement_moves (some role) now .done id
  case h_2 fresh =>
    cases acted
    exact .rest _ id
  case h_3 => cases acted

theorem reapAct_moves (acted : reapAct action d p = some x) : CommandMove t d p x.1 x.2 := by
  unfold reapAct at acted
  split at acted
  case h_1 now fresh =>
    cases acted
    refine .rest _ ?_
    cases d.command.bind (staleMessage now) <;> exact id
  case h_2 fresh =>
    cases acted
    exact .rest _ id
  case h_3 errorMsg now reaping =>
    cases acted
    exact timeoutStatement_moves now errorMsg (some "server") (fun _ => id) id
  case h_4 now propagating =>
    cases acted
    exact .propagated _ id
  case h_5 => cases acted

theorem found_rests (role : AgentCredentialRole) (missing : CommandStage) (rest : ¬missing.Delivering) :
    ¬(match d.command with
      | some c => if c.targetRole = role ∧ c.Open then CommandStage.submitting c.type else missing
      | none => missing).Delivering := by
  split
  · split_ifs
    · exact id
    · exact rest
  · exact rest

theorem processing_moves (type : String) (r : AgentCommandResult)
    (acted : (if type ∈ RESTORE_COMMAND_TYPES then restoreRead d p fun _ => (type, r)
      else (d, { p with stage := .done })) = x) : CommandMove t d p x.1 x.2 := by
  split_ifs at acted <;> subst acted
  · exact restoreRead_moves _
  · exact .rest _ id

theorem socketResultAct_moves {r : AgentCommandResult} (acted : socketResultAct validate t r action d p = some x) :
    CommandMove t d p x.1 x.2 := by
  unfold socketResultAct at acted
  split at acted
  case h_1 now fresh =>
    cases acted
    exact .rest _ (found_rests .agent .orphaned id)
  case h_2 type now submitting =>
    cases acted
    exact resultStatement_moves validate .agent now type r
  case h_3 type result now processing => exact processing_moves type result (some.inj acted)
  case h_4 now orphaned =>
    cases acted
    exact restoreRead_moves _
  case h_5 type result now restoring =>
    cases acted
    exact restoreStatement_moves type result
  case h_6 => cases acted

theorem restResultAct_moves {role : AgentCredentialRole} {r : AgentCommandResult}
    (acted : restResultAct validate t role r action d p = some x) : CommandMove t d p x.1 x.2 := by
  unfold restResultAct at acted
  split at acted
  case h_1 now fresh =>
    cases acted
    exact .rest _ (found_rests role .done id)
  case h_2 type now submitting =>
    cases acted
    exact resultStatement_moves validate role now type r
  case h_3 type result now processing => exact processing_moves type result (some.inj acted)
  case h_4 type result now restoring =>
    cases acted
    exact restoreStatement_moves type result
  case h_5 => cases acted

theorem commandAct_moves (acted : commandAct validate t action d p = some x) : CommandMove t d p x.1 x.2 := by
  cases call : p.call with
  | deliver => exact deliverAct_moves (by simpa only [commandAct, call] using acted)
  | executeCommand o => exact executeCommandAct_moves call (by simpa only [commandAct, call] using acted)
  | claimPendingCommandsForDevice role => exact pollAct_moves (by simpa only [commandAct, call] using acted)
  | waitForCommandResult timeoutMs => exact waitAct_moves (by simpa only [commandAct, call] using acted)
  | reapStaleDeviceCommands => exact reapAct_moves (by simpa only [commandAct, call] using acted)
  | processCommandResult r => exact socketResultAct_moves (by simpa only [commandAct, call] using acted)
  | postCommandResult role r => exact restResultAct_moves (by simpa only [commandAct, call] using acted)

end Moves

theorem commandStep_moves {w next : CommandWorld} {e : ℕ × CommandAction}
    (stepped : commandStep validate w e = some next) :
    ∃ d p, CommandMove e.1 w.db (w.proc e.1) d p ∧ next = ⟨d, update w.proc e.1 p⟩ := by
  obtain ⟨d, p, acted, rfl⟩ := World.step_eq_some stepped
  exact ⟨d, p, commandAct_moves acted, rfl⟩

namespace DeviceCommand
variable {c : DeviceCommand}

theorem open_of_pending (pending : c.status = .pending) : c.Open := .inl pending

theorem open_of_sent (sent : c.status = .sent) : c.Open := .inr sent

theorem not_open_settled {status : CommandStatus} (final : status = .completed ∨ status = .failed) (now : ℕ)
    (result : StoredCommandResult) : ¬(c.settled status now result).Open := by
  unfold Open settled
  rcases final with rfl | rfl <;> simp

/-- The command is in the hands of the claim with this stamp, or has ended. -/
def Under (stamp : ℕ) (c : DeviceCommand) : Prop := c.status = .sent ∧ c.executedAt = some stamp ∨ ¬c.Open

theorem Under.not_pending {stamp : ℕ} (under : c.Under stamp) : c.status ≠ .pending := by
  intro pending
  rcases under with ⟨sent, -⟩ | closed
  · rw [pending] at sent
    cases sent
  · exact closed (open_of_pending pending)

end DeviceCommand

namespace CommandProc

/-- The writer was handed the command and has not given it back. -/
def Holds (p : CommandProc) : Prop := p.claim ≠ none

def Processed (p : CommandProc) : Prop := p.postProcessed = true

end CommandProc

/-- Every claim names the stamp of the row until the row has ended, results are post-processed only where the row
has ended, and a restore job that has taken a result takes no other. -/
structure Dispatched (w : CommandWorld) : Prop where
  under : ∀ t stamp, (w.proc t).claim = some stamp → ∃ c, w.db.command = some c ∧ c.Under stamp
  delivering : ∀ t, (w.proc t).stage.Delivering → (w.proc t).Holds
  holders : World.Exclusive CommandProc.Holds w.proc
  ended : ∀ t, (w.proc t).Processed → ∃ c, w.db.command = some c ∧ ¬c.Open
  processed : World.Exclusive CommandProc.Processed w.proc
  restored : w.db.restoredFor = [] ∨
    (w.db.restoredFor.length = 1 ∧ ∀ job, w.db.restoreJob = some job → isMutableRestoreStatus job.status = false)

section Invariant
variable {w : CommandWorld} {t : ℕ} {d : CommandDb} {p : CommandProc} {c : DeviceCommand}

theorem Dispatched.unclaimed (dispatched : Dispatched w) (found : w.db.command = some c)
    (pending : c.status = .pending) (u : ℕ) : ¬(w.proc u).Holds := by
  intro holds
  obtain ⟨stamp, claimed⟩ := ne_none_iff_exists'.mp holds
  obtain ⟨c', found', under⟩ := dispatched.under u stamp claimed
  cases found.symm.trans found'
  exact under.not_pending pending

theorem Dispatched.unprocessed (dispatched : Dispatched w) (found : w.db.command = some c)
    (accepted : c.Open) (u : ℕ) : ¬(w.proc u).Processed := by
  intro processed
  obtain ⟨c', found', closed⟩ := dispatched.ended u processed
  cases found.symm.trans found'
  exact closed accepted

theorem Dispatched.under_update (dispatched : Dispatched w) (move : CommandMove t w.db (w.proc t) d p) :
    ∀ u stamp, (update w.proc t p u).claim = some stamp → ∃ c, d.command = some c ∧ c.Under stamp := by
  have before := dispatched.under
  rw [forall_update_iff w.proc (p := fun u q => ∀ stamp, q.claim = some stamp →
    ∃ c, d.command = some c ∧ c.Under stamp)]
  cases move with
  | moved stage kept | restored stage found mutable final rest | propagated stage rest =>
    exact ⟨before t, fun u _ => before u⟩
  | inserted now stage called inserting empty rest =>
    have nobody : ∀ u stamp, (w.proc u).claim ≠ some stamp := by
      intro u stamp claimed
      obtain ⟨c, found, -⟩ := before u stamp claimed
      rw [empty] at found
      cases found
    exact ⟨fun stamp claimed => absurd claimed (nobody t stamp),
      fun u _ stamp claimed => absurd claimed (nobody u stamp)⟩
  | claimed now stage found pending =>
    refine ⟨fun stamp claimed => ?_, fun u _ stamp claimed => ?_⟩
    · cases claimed
      exact ⟨_, rfl, .inl ⟨rfl, rfl⟩⟩
    · refine absurd ?_ (dispatched.unclaimed found pending u)
      rw [CommandProc.Holds, claimed]
      exact some_ne_none stamp
  | released stage found sent held rest =>
    refine ⟨fun stamp claimed => absurd claimed (some_ne_none stamp).symm, fun u other stamp claimed => ?_⟩
    refine absurd ?_ (dispatched.holders t u (Ne.symm other) ?_)
    · rw [CommandProc.Holds, claimed]
      exact some_ne_none stamp
    · rw [CommandProc.Holds, held]
      exact some_ne_none _
  | unclaimed stage rest =>
    exact ⟨fun stamp claimed => absurd claimed (some_ne_none stamp).symm, fun u _ => before u⟩
  | ended c status now result stage found accepted final rest
  | processed c status now result stage found accepted final rest =>
    have closed : ∀ stamp, ∃ after, some (c.settled status now result) = some after ∧ after.Under stamp :=
      fun stamp => ⟨_, rfl, .inr (DeviceCommand.not_open_settled final now result)⟩
    exact ⟨fun stamp _ => closed stamp, fun u _ stamp _ => closed stamp⟩

theorem Dispatched.delivering_update (dispatched : Dispatched w) (move : CommandMove t w.db (w.proc t) d p) :
    ∀ u, (update w.proc t p u).stage.Delivering → (update w.proc t p u).Holds := by
  rw [forall_update_iff w.proc (p := fun u q => q.stage.Delivering → q.Holds)]
  refine ⟨?_, fun u _ => dispatched.delivering u⟩
  cases move with
  | moved stage kept => exact fun delivering => dispatched.delivering t (kept delivering)
  | claimed now stage found pending => exact fun _ => some_ne_none now
  | inserted _ _ _ _ _ rest | released _ _ _ _ rest | unclaimed _ rest | ended _ _ _ _ _ _ _ _ rest
  | processed _ _ _ _ _ _ _ _ rest | restored _ _ _ _ rest | propagated _ rest =>
    exact fun delivering => absurd delivering rest

theorem Dispatched.holders_update (dispatched : Dispatched w) (move : CommandMove t w.db (w.proc t) d p) :
    World.Exclusive CommandProc.Holds (update w.proc t p) := by
  refine dispatched.holders.update fun holds u other => ?_
  cases move with
  | claimed now stage found pending => exact dispatched.unclaimed found pending u
  | released | unclaimed => exact absurd rfl holds
  | moved | inserted | ended | processed | restored | propagated => exact dispatched.holders t u (Ne.symm other) holds

theorem Dispatched.ended_update (dispatched : Dispatched w) (move : CommandMove t w.db (w.proc t) d p) :
    ∀ u, (update w.proc t p u).Processed → ∃ c, d.command = some c ∧ ¬c.Open := by
  have before := dispatched.ended
  rw [forall_update_iff w.proc (p := fun u q => q.Processed → ∃ c, d.command = some c ∧ ¬c.Open)]
  cases move with
  | moved | unclaimed | restored | propagated => exact ⟨before t, fun u _ => before u⟩
  | inserted now stage called inserting empty rest =>
    have nobody : ∀ u, ¬(w.proc u).Processed := by
      intro u processed
      obtain ⟨c, found, -⟩ := before u processed
      rw [empty] at found
      cases found
    exact ⟨fun processed => absurd processed (nobody t), fun u _ processed => absurd processed (nobody u)⟩
  | claimed now stage found pending =>
    have nobody := dispatched.unprocessed found (DeviceCommand.open_of_pending pending)
    exact ⟨fun processed => absurd processed (nobody t), fun u _ processed => absurd processed (nobody u)⟩
  | released stage found sent held rest =>
    have nobody := dispatched.unprocessed found (DeviceCommand.open_of_sent sent)
    exact ⟨fun processed => absurd processed (nobody t), fun u _ processed => absurd processed (nobody u)⟩
  | ended c status now result stage found accepted final rest
  | processed c status now result stage found accepted final rest =>
    have closed : ∃ after, some (c.settled status now result) = some after ∧ ¬after.Open :=
      ⟨_, rfl, DeviceCommand.not_open_settled final now result⟩
    exact ⟨fun _ => closed, fun u _ _ => closed⟩

theorem Dispatched.processed_update (dispatched : Dispatched w) (move : CommandMove t w.db (w.proc t) d p) :
    World.Exclusive CommandProc.Processed (update w.proc t p) := by
  refine dispatched.processed.update fun done u other => ?_
  cases move with
  | processed c status now result stage found accepted final rest => exact dispatched.unprocessed found accepted u
  | moved | inserted | claimed | released | unclaimed | ended | restored | propagated =>
    exact dispatched.processed t u (Ne.symm other) done

theorem isMutable_propagateTimedOut (job : RestoreJob) :
    isMutableRestoreStatus (propagateTimedOut job).status = false := by
  unfold propagateTimedOut
  split_ifs with mutable
  · rfl
  · exact Bool.not_eq_true _ ▸ mutable

theorem Dispatched.restored_update (dispatched : Dispatched w) (move : CommandMove t w.db (w.proc t) d p) :
    d.restoredFor = [] ∨
      (d.restoredFor.length = 1 ∧ ∀ job, d.restoreJob = some job → isMutableRestoreStatus job.status = false) := by
  have before := dispatched.restored
  cases move with
  | moved | inserted | claimed | released | unclaimed | ended | processed => exact before
  | restored stage found mutable final rest =>
    rcases before with empty | ⟨-, immutable⟩
    · refine .inr ⟨by simp only [empty, List.length_singleton], fun job same => ?_⟩
      cases same
      exact final
    · rw [immutable _ found] at mutable
      cases mutable
  | propagated stage rest =>
    refine before.imp id fun ⟨one, _⟩ => ⟨one, fun job same => ?_⟩
    obtain ⟨original, -, rfl⟩ := map_eq_some_iff.mp same
    exact isMutable_propagateTimedOut original

theorem Dispatched.update (dispatched : Dispatched w) (move : CommandMove t w.db (w.proc t) d p) :
    Dispatched ⟨d, update w.proc t p⟩ where
  under := dispatched.under_update move
  delivering := dispatched.delivering_update move
  holders := dispatched.holders_update move
  ended := dispatched.ended_update move
  processed := dispatched.processed_update move
  restored := dispatched.restored_update move

theorem CommandMove.absorbing {before : CommandDb} {q : CommandProc} (move : CommandMove t before q d p) (found : before.command = some c) (closed : ¬c.Open) : d.command = some c := by
  cases move with
  | moved | unclaimed | restored | propagated => exact found
  | inserted now stage called inserting empty rest =>
    rw [empty] at found
    cases found
  | claimed now stage other pending =>
    cases other.symm.trans found
    exact absurd (DeviceCommand.open_of_pending pending) closed
  | released stage other sent held rest =>
    cases other.symm.trans found
    exact absurd (DeviceCommand.open_of_sent sent) closed
  | ended c' status now result stage other accepted final rest
  | processed c' status now result stage other accepted final rest =>
    cases other.symm.trans found
    exact absurd accepted closed

theorem CommandMove.handed {before : CommandDb} {q : CommandProc} (move : CommandMove t before q d p)
    (free : ¬q.Holds) (holds : p.Holds) : ∃ c, before.command = some c ∧ c.status = .pending := by
  cases move with
  | claimed now stage found pending => exact ⟨_, found, pending⟩
  | released | unclaimed => exact absurd rfl holds
  | moved | inserted | ended | processed | restored | propagated => exact absurd holds free

end Invariant

def commandWorld (command : Option DeviceCommand) (restoreJob : Option RestoreJob) (calls : ℕ → CommandCall) :
    CommandWorld :=
  ⟨⟨command, restoreJob, []⟩, fun t => ⟨calls t, .start, none, false⟩⟩

theorem dispatched_commandWorld (command : Option DeviceCommand) (restoreJob : Option RestoreJob)
    (calls : ℕ → CommandCall) : Dispatched (commandWorld command restoreJob calls) where
  under _ stamp claimed := absurd claimed (some_ne_none stamp).symm
  delivering _ delivering := absurd delivering id
  holders _ _ _ holds := absurd rfl holds
  ended _ processed := absurd processed Bool.false_ne_true
  processed _ _ _ processed := absurd processed Bool.false_ne_true
  restored := .inl rfl

/-- A step that no race can spoil: a command that has ended keeps its row, result and time of completion included;
at most one writer has been handed the command, it was pending when it was handed over, and only its holder sends
it; and one result at most is post-processed and written to the restore job. -/
structure SafeStep (w : CommandWorld) (e : ℕ × CommandAction) (next : CommandWorld) : Prop where
  absorbing : ∀ c, w.db.command = some c → c.status = .completed ∨ c.status = .failed → next.db.command = some c
  holders : World.Exclusive CommandProc.Holds next.proc
  handed : ¬(w.proc e.1).Holds → (next.proc e.1).Holds → ∃ c, w.db.command = some c ∧ c.status = .pending
  sender : ∀ ok, e.2 = .send ok → (w.proc e.1).Holds
  processed : World.Exclusive CommandProc.Processed next.proc
  restored : next.db.restoredFor.length ≤ 1

theorem send_delivering {t : ℕ} {ok : Bool} {d : CommandDb} {p : CommandProc}
    {x : CommandDb × CommandProc} (acted : commandAct validate t (.send ok) d p = some x) : p.stage.Delivering := by
  obtain ⟨call, stage, claim, postProcessed⟩ := p
  cases call <;> cases stage <;> trivial

theorem Dispatched.safeStep {w next : CommandWorld} {e : ℕ × CommandAction}
    (dispatched : Dispatched w) (stepped : commandStep validate w e = some next) : SafeStep w e next := by
  obtain ⟨d, p, acted, rfl⟩ := World.step_eq_some stepped
  have move : CommandMove e.1 w.db (w.proc e.1) d p := commandAct_moves acted
  have later := dispatched.update move
  constructor
  · intro c found final
    refine move.absorbing found ?_
    rintro (pending | sent)
    · rcases final with final | final <;> rw [pending] at final <;> cases final
    · rcases final with final | final <;> rw [sent] at final <;> cases final
  · exact later.holders
  · intro free holds
    simp only [update_self] at holds
    exact move.handed free holds
  · intro ok sends
    rw [sends] at acted
    exact dispatched.delivering e.1 (send_delivering acted)
  · exact later.processed
  · rcases later.restored with empty | ⟨one, -⟩
    · rw [empty]
      exact Nat.zero_le 1
    · exact Nat.le_of_eq one

/-- The caller was told that the device was unreachable, or that the command timed out while it was pending. -/
def CommandStage.ReportedFailed : CommandStage → Prop
  | .returned .unreachable | .returned (.timedOut true _) => True
  | _ => False

/-- One call of `executeCommand`, as writer 0, among any other writers. -/
def executeWorld (o : ExecuteOptions) (restoreJob : Option RestoreJob) (calls : ℕ → CommandCall) : CommandWorld :=
  commandWorld none restoreJob fun t => if t = 0 then .executeCommand o else calls t

def HandedByPoll (validate : CriticalValidation) (w : CommandWorld) (e : ℕ × CommandAction) : Prop :=
  ∃ role next, (w.proc e.1).call = .claimPendingCommandsForDevice role ∧ commandStep validate w e = some next ∧
    ¬(w.proc e.1).Holds ∧ (next.proc e.1).Holds

def StaysFailed (validate : CriticalValidation) (w : CommandWorld) (e : ℕ × CommandAction) : Prop :=
  (w.proc 0).stage.ReportedFailed → ¬HandedByPoll validate w e

/-- `executeCommand` does not give an interactive command back, after its last send has failed, while the command
is open. -/
def KeepsInteractive (w : CommandWorld) (e : ℕ × CommandAction) : Prop :=
  ∀ o c, (w.proc e.1).call = .executeCommand o → o.interactive = true → (w.proc e.1).stage = .releasing →
    w.db.command = some c → ¬c.Open

def CommandDb.Over (d : CommandDb) : Prop := ∀ c, d.command = some c → ¬c.Open

/-- The stages of `executeCommand` in which nothing may be left for a poll: before the insert, where there is
no command yet, and once it has failed. -/
def CommandStage.NothingLeft : CommandStage → Prop
  | .start | .inserting _ | .returned .unreachable | .expired true | .returned (.timedOut true _) => True
  | _ => False

theorem CommandStage.ReportedFailed.nothingLeft {stage : CommandStage} (reported : stage.ReportedFailed) :
    stage.NothingLeft := by
  unfold CommandStage.ReportedFailed at reported
  split at reported
  · trivial
  · trivial
  · exact absurd reported id

/-- Writer 0 alone inserts the command. -/
structure Executing (o : ExecuteOptions) (w : CommandWorld) : Prop where
  dispatched : Dispatched w
  own : (w.proc 0).call = .executeCommand o
  others : ∀ t o', t ≠ 0 → (w.proc t).call ≠ .executeCommand o'
  left : (w.proc 0).stage.NothingLeft → w.db.Over

section Execute
variable {validate : CriticalValidation} {o : ExecuteOptions} {t : ℕ} {before d : CommandDb} {q p : CommandProc}

theorem CommandMove.staysOver (move : CommandMove t before q d p)
    (writes : ∀ o hasAgent, q.call = .executeCommand o → q.stage ≠ .inserting hasAgent) (ended : before.Over) :
    d.Over := by
  cases move with
  | moved | unclaimed | restored | propagated => exact ended
  | inserted now stage called inserting empty rest => exact absurd inserting (writes _ _ called)
  | claimed now stage found pending => exact absurd (DeviceCommand.open_of_pending pending) (ended _ found)
  | released stage found sent held rest => exact absurd (DeviceCommand.open_of_sent sent) (ended _ found)
  | ended c status now result stage found accepted final rest
  | processed c status now result stage found accepted final rest => exact absurd accepted (ended c found)

theorem CommandMove.call (move : CommandMove t before q d p) : p.call = q.call := by
  cases move <;> rfl

theorem timeoutStatement_over {now : ℕ} {error : String} {timedOutBy : Option String}
    {hit : DeviceCommand → CommandStage} {miss : CommandStage} :
    (timeoutStatement before q now error timedOutBy hit miss).1.Over := by
  unfold timeoutStatement
  split
  case h_1 c found =>
    split_ifs with accepted
    · intro after same
      cases same
      exact DeviceCommand.not_open_settled (.inr rfl) now _
    · intro after same
      cases found.symm.trans same
      exact accepted
  case h_2 empty =>
    intro after same
    rw [empty] at same
    cases same

theorem waitStatement_left {timeoutMs startTime now : ℕ}
    (left : (waitStatement before q timeoutMs startTime now).2.stage.NothingLeft) :
    (waitStatement before q timeoutMs startTime now).1.Over := by
  unfold waitStatement at left ⊢
  split_ifs at left ⊢
  · split at left
    · cases left
    · dsimp only at left
      split_ifs at left
      all_goals cases left
  · exact timeoutStatement_over

theorem executeCommandAct_left {action : CommandAction} {x : CommandDb × CommandProc}
    (called : q.call = .executeCommand o) (before_left : q.stage.NothingLeft → before.Over)
    (keeps : o.interactive = true → q.stage = .releasing → before.Over)
    (acted : executeCommandAct o action before q = some x) (left : x.2.stage.NothingLeft) : x.1.Over := by
  have move : CommandMove 0 before q x.1 x.2 := executeCommandAct_moves called acted
  unfold executeCommandAct at acted
  split at acted
  case h_1 found connected fresh =>
    cases acted
    exact before_left (by rw [fresh]; trivial)
  case h_2 hasAgent now inserting =>
    split_ifs at acted <;> obtain rfl := some.inj acted <;> cases left
  case h_3 now claiming =>
    cases acted
    simp only [claimStatement] at left
    split at left
    · split_ifs at left <;> cases left
    · cases left
  case h_4 attempt ok sending =>
    cases acted
    dsimp only at left
    split_ifs at left <;> cases left
  case h_5 now releasing =>
    cases acted
    have stage : (releaseStatement before q (if o.interactive then .returned .unreachable else .awaiting)).2.stage =
        if o.interactive then .returned .unreachable else .awaiting := by
      unfold releaseStatement
      split
      · split_ifs <;> rfl
      · rfl
    rw [stage] at left
    by_cases interactive : o.interactive = true
    · refine move.staysOver (fun _ _ _ inserting => ?_) (keeps interactive releasing)
      rw [releasing] at inserting
      cases inserting
    · rw [if_neg interactive] at left
      cases left
  case h_6 now awaiting =>
    cases acted
    cases left
  case h_7 startTime now waiting =>
    cases acted
    exact waitStatement_left left
  case h_8 wasPending now expired =>
    cases acted
    cases wasPending with
    | true => exact before_left (by rw [expired]; trivial)
    | false => cases left
  case h_9 => cases acted

theorem Executing.step {w next : CommandWorld} {e : ℕ × CommandAction} (executing : Executing o w)
    (keeps : KeepsInteractive w e) (stepped : commandStep validate w e = some next) : Executing o next := by
  obtain ⟨t, action⟩ := e
  obtain ⟨d, p, acted, rfl⟩ := World.step_eq_some stepped
  have move : CommandMove t w.db (w.proc t) d p := commandAct_moves acted
  have dispatched := executing.dispatched.update move
  by_cases own : t = 0
  · subst own
    have other : ∀ t ≠ 0, update w.proc 0 p t = w.proc t := fun t distinct => update_of_ne distinct ..
    refine ⟨dispatched, ?_, fun t o' distinct => ?_, ?_⟩
    · simp only [update_self]
      exact move.call.trans executing.own
    · simp only [other t distinct]
      exact executing.others t o' distinct
    · simp only [update_self]
      simp only [commandAct, executing.own] at acted
      exact executeCommandAct_left executing.own executing.left
        (fun interactive releasing c found => keeps o c executing.own interactive releasing found) acted
  · have same : update w.proc t p 0 = w.proc 0 := update_of_ne (Ne.symm own) ..
    refine ⟨dispatched, ?_, ?_, ?_⟩
    · simp only [same]
      exact executing.own
    · intro u o' distinct
      by_cases moved : u = t
      · subst moved
        simp only [update_self, move.call]
        exact executing.others u o' distinct
      · simp only [update_of_ne moved]
        exact executing.others u o' distinct
    · simp only [same]
      intro left
      exact move.staysOver (fun o' _ called => absurd called (executing.others t o' own)) (executing.left left)

theorem Executing.staysFailed {w : CommandWorld} (executing : Executing o w) (e : ℕ × CommandAction) :
    StaysFailed validate w e := by
  rintro failed ⟨role, next, called, stepped, free, holds⟩
  obtain ⟨c, found, pending⟩ := (executing.dispatched.safeStep stepped).handed free holds
  exact executing.left failed.nothingLeft c found (DeviceCommand.open_of_pending pending)

theorem executing_executeWorld (o : ExecuteOptions) (restoreJob : Option RestoreJob) {calls : ℕ → CommandCall}
    (others : ∀ t o', calls t ≠ .executeCommand o') : Executing o (executeWorld o restoreJob calls) where
  dispatched := dispatched_commandWorld none restoreJob _
  own := rfl
  others t o' distinct := by
    simp only [executeWorld, commandWorld, if_neg distinct]
    exact others t o'
  left _ c found := absurd found (some_ne_none c).symm

end Execute

/-- In every run in which `executeCommand` gives no interactive command back while it is open, no poll is handed
a command that was reported as failed. -/
theorem failed_stays_failed (validate : CriticalValidation) (o : ExecuteOptions) (restoreJob : Option RestoreJob)
    {calls : ℕ → CommandCall} (others : ∀ t o', calls t ≠ .executeCommand o') {es : List (ℕ × CommandAction)}
    (keeps : Meets (commandStep validate) KeepsInteractive (executeWorld o restoreJob calls) es) :
    Meets (commandStep validate) (StaysFailed validate) (executeWorld o restoreJob calls) es := by
  refine keeps.under (fun w e next executing kept stepped => ?_) (fun w e executing _ => ?_)
    (executing_executeWorld o restoreJob others)
  · exact Executing.step executing kept stepped
  · exact executing.staysFailed e

def fileDelete : ExecuteOptions := ⟨"file_delete", none, 30000, false, .agent⟩

def patchScan : ExecuteOptions := ⟨"patch_scan", none, 30000, false, .agent⟩

def noValidation : CriticalValidation := fun _ _ => .ok none

def polls : ℕ → CommandCall := fun _ => .claimPendingCommandsForDevice .agent

def unsent : List (ℕ × CommandAction) :=
  [(0, .device (some (.online, true)) true), (0, .exec 1000), (0, .exec 1001), (0, .send false), (0, .send false),
    (0, .send false), (0, .exec 1010)]

def waited : List (ℕ × CommandAction) := [(0, .exec 1011), (0, .exec 31011), (0, .exec 31012)]

theorem keepsInteractive_of_calls {validate : CriticalValidation} {w : CommandWorld}
    (background : ∀ t o, (w.proc t).call = .executeCommand o → o.interactive = false) (es : List (ℕ × CommandAction)) :
    Meets (commandStep validate) KeepsInteractive w es := by
  refine Meets.of_invariant (fun w => ∀ t o, (w.proc t).call = .executeCommand o → o.interactive = false)
    ?_ ?_ background
  · intro w e _ next background stepped
    obtain ⟨d, p, move, rfl⟩ := commandStep_moves stepped
    apply (forall_update_iff w.proc (p := fun _ q => ∀ o, q.call = .executeCommand o → o.interactive = false)).mpr
    exact ⟨fun o called => background e.1 o (move.call.symm.trans called), fun t _ => background t⟩
  · intro w e _ background o c called interactive
    rw [background e.1 o called] at interactive
    cases interactive

theorem failed_stays_failed_patchScan :
    Meets (commandStep noValidation) (StaysFailed noValidation) (executeWorld patchScan none polls)
      (unsent ++ waited ++ [(1, .exec 40000)]) := by
  refine failed_stays_failed noValidation patchScan none (fun t o' same => CommandCall.noConfusion same)
    (keepsInteractive_of_calls ?_ _)
  intro t o called
  by_cases own : t = 0
  · subst own
    obtain rfl := CommandCall.executeCommand.inj called
    decide +kernel
  · simp only [executeWorld, commandWorld, if_neg own] at called
    cases called

/-- The agent polls a delete that the operator was told had failed. -/
theorem reported_delete_handed :
    ¬Meets (commandStep noValidation) (StaysFailed noValidation) (executeWorld fileDelete none polls)
      (unsent ++ [(1, .exec 5000)]) := by
  intro meets
  have told : (run (commandStep noValidation) (executeWorld fileDelete none polls) unsent).map (fun w =>
      ((w.proc 0).stage, (w.proc 1).call, (w.proc 1).claim,
        (commandStep noValidation w (1, .exec 5000)).map fun next => (next.proc 1).claim)) =
      some (.returned .unreachable, .claimPendingCommandsForDevice .agent, none, some (some 5000)) := by decide +kernel
  obtain ⟨w, reach, facts⟩ := map_eq_some_iff.mp told
  simp only [Prod.mk.injEq] at facts
  obtain ⟨stage, call, unclaimed, handed⟩ := facts
  obtain ⟨next, stepped, held⟩ := map_eq_some_iff.mp handed
  refine (meets.drop reach).1 ?_ ⟨.agent, next, call, stepped, fun holds => holds unclaimed, ?_⟩
  · rw [stage]
    trivial
  · rw [CommandProc.Holds, held]
    exact some_ne_none 5000

end RemudaRmm.Agents
