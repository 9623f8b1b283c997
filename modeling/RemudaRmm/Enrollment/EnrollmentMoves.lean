import RemudaRmm.Enrollment.EnrollmentStatements

/-! What one step of a run can do: which rows an enrolling call holds at each of its stages, and what it makes of
them. -/
namespace RemudaRmm.Enrollment
open Foundation

def Stage.Active : Stage → Prop
  | .idle | .refused _ | .succeeded _ _ => False
  | _ => True

/-- The call has claimed no key and has not come to its device. -/
def Stage.Opening : Stage → Prop
  | .claimKey _ _ | .commit _ _ | .succeeded _ _ => False
  | _ => True

/-- A call that may hold rows of devices, and the device it has written if it has. -/
def Stage.writing : Stage → Option (Admission × Option ℕ)
  | .writeDevice a => some (a, none)
  | .claimKey a i | .commit a i => some (a, some i)
  | _ => none

/-- The version of a row that a call holds, by the committed one. -/
inductive Pending (s : Settings) (a : Admission) (written : Option ℕ) (i : ℕ) :
    Option Device → Option Device → Prop where
  | renamed (d : Device) (placed : a.placement = .replace i) : Pending s a written i (some d) (some (a.renamed s i d))
  | reenrolled (d : Device) (placed : a.placement = .inPlace i) (done : written = some i) :
      Pending s a written i (some d) (some (a.reenrolled s d))
  | created (placed : ∀ x, a.placement ≠ .inPlace x) (done : written = some i) :
      Pending s a written i none (some (a.newDevice s))

inductive EnrollMove (s : Settings) (t : ℕ) (db : EnrollDb) : Stage → Signal → EnrollDb → Stage → Prop where
  | reads {stage next : Stage} {signal : Signal} (enrolling : signal.Enrolling) (before : stage.writing = none)
      (under : stage.Opening) (after : next.Opening) : EnrollMove s t db stage signal db next
  | refuses {stage : Stage} {signal : Signal} (refusal : Refusal) (enrolling : signal.Enrolling)
      (under : stage.Active) : EnrollMove s t db stage signal (db.rollback t) (.refused refusal)
  | renames {now : ℤ} {pick : ℕ} (a : Admission) (i : ℕ) (d : Device) (placed : a.placement = .replace i)
      (free : (db.devices i).Free t) (found : (db.devices i).read t = some d) :
      EnrollMove s t db (.renameDevice a) (.exec now pick)
        { db with devices := db.devices.write t i (some (a.renamed s i d)) } (.writeDevice a)
  | reenrolls {now : ℤ} {pick : ℕ} (a : Admission) (i : ℕ) (d : Device) (placed : a.placement = .inPlace i)
      (free : (db.devices i).Free t) (found : (db.devices i).read t = some d) :
      EnrollMove s t db (.writeDevice a) (.exec now pick)
        { db with devices := db.devices.write t i (some (a.reenrolled s d)) } (.claimKey a i)
  | creates {now : ℤ} {pick : ℕ} (a : Admission) (i : ℕ) (placed : ∀ x, a.placement ≠ .inPlace x)
      (free : (db.devices i).Free t) (found : (db.devices i).read t = none) :
      EnrollMove s t db (.writeDevice a) (.exec now pick)
        { db with
          devices := db.devices.write t i (some (a.newDevice s))
          deviceIds := db.deviceIds.insert i
          once := db.once.insert } (.claimKey a i)
  | claims {now : ℤ} {pick : ℕ} (a : Admission) (i : ℕ) (key : EnrollmentKey) (free : (db.keys a.keyId).Free t)
      (found : (db.keys a.keyId).read t = some key) (room : key.exhausted = false) :
      EnrollMove s t db (.claimKey a i) (.exec now pick)
        { db with keys := db.keys.write t a.keyId (some key.used) } (.commit a i)
  | commits {now : ℤ} {pick : ℕ} (a : Admission) (i : ℕ) : EnrollMove s t db (.commit a i) (.exec now pick)
        { db.commit t with granted := db.granted ++ [(t, a.keyId)] } (.succeeded a.keyId i)
  | administers {signal : Signal} (admin : ¬signal.Enrolling) (i : ℕ) (f : Device → Device)
      (free : (db.devices i).Free t) : EnrollMove s t db .idle signal
        { db with devices := Function.update db.devices i (Row.unheld ((db.devices i).committed.map f)) } .idle

section Moves
variable {s : Settings} {dir : Directory} {t : ℕ} {db next : EnrollDb} {stage stage' : Stage} {signal : Signal}

theorem enter_opening (a : Admission) : (a.enter dir).Opening := by
  unfold Admission.enter Admission.proceed
  split
  · split <;> trivial
  · split <;> trivial
  · trivial

theorem proceed_opening (a : Admission) : a.proceed.Opening := by
  unfold Admission.proceed
  split <;> trivial

theorem selectKey_opening {now : ℤ} {pick : ℕ} {r : EnrollRequest} : (selectKey s t now pick r db).Opening := by
  unfold selectKey
  split
  · trivial
  · split <;> trivial

theorem selectDevice_opening {now : ℤ} {pick keyId orgId siteId : ℕ} {r : EnrollRequest} :
    (selectDevice s dir t now pick r keyId orgId siteId db).Opening := by
  unfold selectDevice
  split
  · exact enter_opening _
  · split
    · trivial
    · exact enter_opening _

theorem execute_move {now : ℤ} {pick : ℕ} (done : execute s dir t now pick db stage = some (next, stage')) :
    EnrollMove s t db stage (.exec now pick) next stage' := by
  unfold execute at done
  cases stage with
  | idle | refused | succeeded => cases done
  | selectKey r =>
    exact of_some_eq done (.reads trivial rfl trivial selectKey_opening)
  | selectTenant r keyId orgId siteId =>
    refine of_some_eq done (.reads trivial rfl trivial ?_)
    split <;> trivial
  | selectDevice r keyId orgId siteId =>
    exact of_some_eq done (.reads trivial rfl trivial selectDevice_opening)
  | countDevices a partnerId maxDevices =>
    dsimp only at done
    split at done
    · exact of_some_eq done (.refuses _ trivial trivial)
    · exact of_some_eq done (.reads trivial rfl trivial (proceed_opening a))
  | renameDevice a =>
    dsimp only at done
    split at done
    · next i placed =>
      split at done
      · next free =>
        split at done
        · exact of_some_eq done (.reads trivial rfl trivial trivial)
        · next d found =>
          exact of_some_eq done (.renames a i d placed free found)
      · cases done
    · exact of_some_eq done (.reads trivial rfl trivial trivial)
    · exact of_some_eq done (.reads trivial rfl trivial trivial)
  | writeDevice a =>
    have created (placed : ∀ x, a.placement ≠ .inPlace x)
        (inserted : insertDevice s t a pick db = some (next, stage')) :
        EnrollMove s t db (.writeDevice a) (.exec now pick) next stage' := by
      unfold insertDevice at inserted
      split at inserted
      · next free =>
        split at inserted
        · exact of_some_eq inserted (.refuses _ trivial trivial)
        · next found =>
          exact of_some_eq inserted (.creates a pick placed free found)
      · cases inserted
    dsimp only at done
    split at done
    · next i placed =>
      unfold reenroll at done
      split at done
      · next free =>
        split at done
        · exact of_some_eq done (.refuses _ trivial trivial)
        · next d found =>
          exact of_some_eq done (.reenrolls a i d placed free found)
      · cases done
    · next placed => exact created (by simp [placed]) done
    · next placed => exact created (by simp [placed]) done
  | claimKey a i =>
    dsimp only [claimKey] at done
    split at done
    · exact of_some_eq done (.refuses _ trivial trivial)
    · next key found =>
      split at done
      · next valid =>
        split at done
        · next free =>
          exact of_some_eq done (.claims a i key free found valid.2.2)
        · cases done
      · exact of_some_eq done (.refuses _ trivial trivial)
  | commit a i =>
    exact of_some_eq done (.commits a i)

theorem updateDevice_move {i : ℕ} {f : Device → Device} (admin : ¬signal.Enrolling)
    (done : (updateDevice t i f db).map (·, Stage.idle) = some (next, stage')) :
    EnrollMove s t db .idle signal next stage' := by
  obtain ⟨written, updated, same⟩ := Option.map_eq_some_iff.mp done
  unfold updateDevice at updated
  split at updated
  · next free =>
    cases updated
    cases same
    exact .administers admin i f free
  · cases updated

theorem enroll_move (done : enrollAct s dir t signal db stage = some (next, stage')) :
    EnrollMove s t db stage signal next stage' := by
  unfold enrollAct at done
  split at done
  · exact of_some_eq done (.reads trivial rfl trivial trivial)
  · exact execute_move done
  · cases done
  · cases done
  · cases done
  · next idle refused succeeded =>
    refine of_some_eq done (.refuses _ trivial ?_)
    cases stage with
    | idle => exact absurd rfl idle
    | refused r => exact absurd rfl (refused r)
    | succeeded k i => exact absurd rfl (succeeded k i)
    | _ => trivial
  · exact updateDevice_move id done
  · exact updateDevice_move id done
  · exact updateDevice_move id done
  · cases done

end Moves

end RemudaRmm.Enrollment
