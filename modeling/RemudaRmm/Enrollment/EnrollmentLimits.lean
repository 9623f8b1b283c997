import RemudaRmm.Enrollment.EnrollmentRuns
import Mathlib.Data.List.Perm.Subperm

/-! What `POST /enroll` promises under concurrency. A key counts its calls in every run. The limit of the partner,
hostnames, containment and the proof by token are checked before the rows are written by id, and hold where the checks
would pass again at the commit. -/
namespace RemudaRmm.Enrollment
open Foundation List Option

def active (dir : Directory) (w : EnrollWorld) (partnerId : ℕ) : ℕ :=
  countActive dir w.db (fun i => (w.db.devices i).committed) partnerId

/-- Two devices of one site that are not decommissioned have the same hostname. -/
def Shares (w : EnrollWorld) (i j : ℕ) : Prop := i ≠ j ∧ ∃ d e, (w.db.devices i).committed = some d ∧
  (w.db.devices j).committed = some e ∧ d.Active ∧ e.Active ∧ d.siteId = e.siteId ∧ d.hostname = e.hostname

/-- What the step of a call makes of the committed devices. -/
structure Promised (s : Settings) (dir : Directory) (t : ℕ) (w next : EnrollWorld) : Prop where
  limit : ∀ p partner m, dir.partners p = some partner → partner.maxDevices = some m → active dir w p ≤ m →
    active dir next p ≤ m
  hostnames : ∀ i j, Shares next i j → Shares w i j
  contained : ∀ i d e, (w.db.devices i).committed = some d → (next.db.devices i).committed = some e →
    d.status = .quarantined ∨ d.agentTokenSuspendedAt ≠ none → e.tokens = d.tokens ∧ e.status = d.status
  proven : ∀ i d e, (w.db.devices i).committed = some d → (next.db.devices i).committed = some e → d.Active →
    e.tokens ≠ d.tokens → ∃ a j, w.proc t = .commit a j ∧ proves s a.request.existingDeviceToken a.checkedAt d = true

def Respects (s : Settings) (dir : Directory) (w : EnrollWorld) (e : ℕ × Signal) : Prop :=
  e.2.Enrolling → Promised s dir e.1 w (enrollStep s dir w e)

def Placement.existing : Placement → Option ℕ
  | .fresh => none
  | .replace i | .inPlace i => some i

def Placement.Inserts : Placement → Prop
  | .fresh | .replace _ => True
  | .inPlace _ => False

instance : ∀ placement : Placement, Decidable placement.Inserts
  | .fresh | .replace _ => .isTrue trivial
  | .inPlace _ => .isFalse id

/-- The row that was found would be accepted in the same way again; and for a new row the partner has room, and no
device of the site that is not decommissioned has the hostname. -/
def Admission.StillHolds (s : Settings) (dir : Directory) (db : EnrollDb) (a : Admission) : Prop :=
  (∀ i ∈ a.placement.existing, ∀ d ∈ (db.devices i).committed,
    checkExisting s a.request.existingDeviceToken a.checkedAt i d = .ok a.placement) ∧
  (a.placement.Inserts →
    (∀ limit ∈ deviceLimit dir a.orgId, countActive dir db (fun i => (db.devices i).committed) limit.1 < limit.2) ∧
    ∀ i ∈ db.deviceIds, ∀ d ∈ (db.devices i).committed, d.Active → d.siteId = a.siteId →
      d.hostname ≠ a.request.hostname)
  deriving Decidable

def StillAllowed (s : Settings) (dir : Directory) (w : EnrollWorld) (e : ℕ × Signal) : Prop :=
  ∀ a ∈ (w.proc e.1).committing, e.2.Executes → a.StillHolds s dir w.db
  deriving Decidable

section Commits
variable {s : Settings} {dir : Directory} {w : EnrollWorld} {t : ℕ} {a : Admission} {i : ℕ}

theorem inserts_iff {placement : Placement} : placement.Inserts ↔ ∀ x, placement ≠ .inPlace x := by
  cases placement <;> simp [Placement.Inserts]

theorem DevicesHeld.commit_row (held : DevicesHeld s w) (commits : w.proc t = .commit a i) (j : ℕ) :
    (w.db.devices j).read t = (w.db.devices j).committed ∨
      Pending s a (some i) j (w.db.devices j).committed ((w.db.devices j).read t) := by
  rcases (w.db.devices j).read_cases t with ⟨v, rowHeld, read⟩ | ⟨-, same⟩
  · obtain ⟨b, written, writes, pending⟩ := held j t v rowHeld
    rw [commits] at writes
    cases writes
    exact .inr (read ▸ pending)
  · exact .inl same

theorem DevicesHeld.commit_active (held : DevicesHeld s w) (commits : w.proc t = .commit a i)
    (still : a.StillHolds s dir w.db) {j : ℕ} {e : Device} (found : (w.db.devices j).read t = some e)
    (active : e.Active) :
    (∃ d, (w.db.devices j).committed = some d ∧ d.Active ∧ d.orgId = e.orgId ∧ d.siteId = e.siteId ∧
      d.hostname = e.hostname) ∨ (j = i ∧ a.placement.Inserts ∧ e = a.newDevice s) := by
  rcases held.commit_row commits j with same | pending
  · exact .inl ⟨e, same.symm.trans found, active, rfl, rfl, rfl⟩
  · generalize committed : (w.db.devices j).committed = old at pending
    generalize (w.db.devices j).read t = new at found pending
    subst found
    cases pending with
    | renamed d placed =>
      have again := still.1 j (by rw [placed]; rfl) d committed
      rw [placed, checkExisting_replace] at again
      exact absurd again.2.1 active
    | reenrolled d placed done =>
      have again := still.1 j (by rw [placed]; rfl) d committed
      rw [placed, checkExisting_inPlace] at again
      exact .inl ⟨d, rfl, again.2.2.2.1, rfl, rfl, rfl⟩
    | created placed done => exact .inr ⟨(some.inj done).symm, inserts_iff.mpr placed, rfl⟩

theorem length_filter_le_succ {l : List ℕ} (once : l.Nodup) {p q : ℕ → Bool}
    (fits : ∀ j ∈ l, q j = true → p j = true ∨ j = i) : (l.filter q).length ≤ (l.filter p).length + 1 := by
  have subset : l.filter q ⊆ i :: l.filter p := by
    intro j member
    obtain ⟨listed, passes⟩ := mem_filter.mp member
    rcases fits j listed passes with before | rfl
    · exact mem_cons_of_mem i (mem_filter.mpr ⟨listed, before⟩)
    · exact mem_cons_self
  exact (subperm_of_subset (once.filter q) subset).length_le

theorem DevicesHeld.commit_limit (held : DevicesHeld s w) (commits : w.proc t = .commit a i)
    (still : a.StillHolds s dir w.db) {p m : ℕ} {partner : Partner} (found : dir.partners p = some partner)
    (max : partner.maxDevices = some m) (within : active dir w p ≤ m) :
    countActive dir w.db (fun j => (w.db.devices j).read t) p ≤ m := by
  by_cases grows : a.placement.Inserts ∧ (a.newDevice s).OfPartner dir p
  · obtain ⟨inserts, ofPartner⟩ := grows
    have room : deviceLimit dir a.orgId = some (p, m) := by
      unfold Device.OfPartner at ofPartner
      obtain ⟨org, orgFound, same⟩ := Option.any_eq_true _ _ |>.mp ofPartner
      obtain rfl := of_decide_eq_true same
      simp only [Admission.newDevice] at orgFound
      simp [deviceLimit, orgFound, found, max]
    refine le_trans (length_filter_le_succ (i := i) w.db.once fun j _ passes => ?_)
      ((still.2 inserts).1 _ room)
    obtain ⟨e, read, fits⟩ := Option.any_eq_true _ _ |>.mp passes
    obtain ⟨mine, active⟩ := of_decide_eq_true fits
    rcases held.commit_active commits still read active with ⟨d, committed, was, org, -⟩ | ⟨same, -⟩
    · left
      simp only [committed, any_some]
      exact decide_eq_true ⟨by unfold Device.OfPartner at mine ⊢; rwa [org], was⟩
    · exact .inr same
  · refine le_trans (List.Sublist.length_le (monotone_filter_right _ fun j passes => ?_)) within
    obtain ⟨e, read, fits⟩ := Option.any_eq_true _ _ |>.mp passes
    obtain ⟨mine, active⟩ := of_decide_eq_true fits
    rcases held.commit_active commits still read active with ⟨d, committed, was, org, -⟩ | ⟨-, inserts, rfl⟩
    · simp only [committed, any_some]
      exact decide_eq_true ⟨by unfold Device.OfPartner at mine ⊢; rwa [org], was⟩
    · exact absurd ⟨inserts, mine⟩ grows

theorem Sound.commit (sound : Sound s w) (commits : w.proc t = .commit a i) (still : a.StillHolds s dir w.db)
    {next : EnrollWorld} (devices : next.db.devices = fun j => (w.db.devices j).commit t)
    (ids : next.db.deviceIds = w.db.deviceIds) : Promised s dir t w next := by
  have committed (j : ℕ) : (next.db.devices j).committed = (w.db.devices j).read t := by
    rw [devices, Row.committed_commit]
  constructor
  · intro p partner m found max within
    have kept := sound.devices.commit_limit commits still found max within
    simp only [active, countActive, ids, committed] at kept ⊢
    exact kept
  · rintro x y ⟨distinct, d, e, foundX, foundY, activeX, activeY, site, hostname⟩
    rw [committed] at foundX foundY
    have clash {z : ℕ} {f : Device} (inserts : a.placement.Inserts) (was : (w.db.devices z).committed = some f)
        (active : f.Active) (same : f.siteId = a.siteId) (named : f.hostname = a.request.hostname) : False :=
      (still.2 inserts).2 z (sound.listed.committed z f was) f was active same named
    rcases sound.devices.commit_active commits still foundX activeX with
      ⟨f, wasX, beforeX, -, siteX, hostX⟩ | ⟨rfl, inserts, rfl⟩ <;>
    rcases sound.devices.commit_active commits still foundY activeY with
      ⟨g, wasY, beforeY, -, siteY, hostY⟩ | ⟨rfl, inserts', rfl⟩
    · exact ⟨distinct, f, g, wasX, wasY, beforeX, beforeY, by rw [siteX, siteY, site], by rw [hostX, hostY, hostname]⟩
    · exact (clash inserts' wasX beforeX (siteX.trans site) (hostX.trans hostname)).elim
    · exact (clash inserts wasY beforeY (siteY.trans site.symm) (hostY.trans hostname.symm)).elim
    · exact absurd rfl distinct
  · intro x d e was now confined
    rw [committed] at now
    rcases sound.devices.commit_row commits x with same | pending
    · obtain rfl := some.inj (was.symm.trans (same.symm.trans now))
      exact ⟨rfl, rfl⟩
    · rw [was, now] at pending
      cases pending with
      | renamed d placed => exact ⟨rfl, rfl⟩
      | reenrolled d placed done =>
        have free := checkExisting_ok (still.1 x (by rw [placed]; rfl) d was)
        exact absurd confined (by simp [free.1, free.2])
  · intro x d e was now active changed
    rw [committed] at now
    rcases sound.devices.commit_row commits x with same | pending
    · obtain rfl := some.inj (was.symm.trans (same.symm.trans now))
      exact absurd rfl changed
    · rw [was, now] at pending
      cases pending with
      | renamed d placed => exact absurd rfl changed
      | reenrolled d placed done =>
        have again := still.1 x (by rw [placed]; rfl) d was
        rw [placed, checkExisting_inPlace] at again
        exact ⟨a, i, commits, again.2.2.2.2⟩

end Commits

section Runs
variable {s : Settings} {dir : Directory} {w next : EnrollWorld} {t : ℕ}

theorem countActive_congr {db db' : EnrollDb} (listed : Listed db) (listed' : Listed db')
    (same : ∀ i, (db'.devices i).committed = (db.devices i).committed) (p : ℕ) :
    countActive dir db' (fun i => (db'.devices i).committed) p =
      countActive dir db (fun i => (db.devices i).committed) p := by
  refine ((perm_ext_iff_of_nodup (db'.once.filter _) (db.once.filter _)).mpr fun i => ?_).length_eq
  simp only [mem_filter, same]
  refine and_congr_left fun passes => ?_
  obtain ⟨d, found, -⟩ := Option.any_eq_true _ _ |>.mp passes
  exact ⟨fun _ => listed.committed i d found, fun _ => listed'.committed i d ((same i).trans found)⟩

theorem Promised.unchanged (listed : Listed w.db) (listed' : Listed next.db)
    (same : ∀ i, (next.db.devices i).committed = (w.db.devices i).committed) : Promised s dir t w next := by
  constructor
  · intro p partner m found max within
    rw [active, countActive_congr listed listed' same]
    exact within
  · intro i j
    simp only [Shares, same]
    exact id
  · intro i d e was now confined
    obtain rfl := some.inj (was.symm.trans ((same i).symm.trans now))
    exact ⟨rfl, rfl⟩
  · intro i d e was now active changed
    obtain rfl := some.inj (was.symm.trans ((same i).symm.trans now))
    exact absurd rfl changed

theorem Sound.respects (sound : Sound s w) {e : ℕ × Signal} (still : StillAllowed s dir w e) : Respects s dir w e := by
  intro enrolling
  have after := (sound.step dir e).listed
  rcases enrollStep_cases s dir w e with same | ⟨db, stage, move, eq⟩
  · rw [same]
    exact .unchanged sound.listed sound.listed fun _ => rfl
  · rw [eq] at after ⊢
    rcases move.settles with ⟨executes, a, i, commits, rfl, rfl⟩ | ⟨-, -, -, -, devices⟩
    · exact sound.commit commits (still a (by rw [commits]; rfl) executes) rfl rfl
    · exact .unchanged sound.listed after (devices enrolling)

/-- The usage of the keys is right throughout every run, and a call that does not succeed leaves no trace. What else is
promised of a step holds wherever the checks of the call would be passed again at its commit. -/
theorem enrollment_limits (quiet : Quiet w) (usage : UsageCounted w) (es : List (ℕ × Signal)) :
    Throughout (enrollStep s dir) UsageCounted w es ∧ StepsMeet (enrollStep s dir) (LeavesRows s dir) w es ∧
      (StepsMeet (enrollStep s dir) (StillAllowed s dir) w es →
        StepsMeet (enrollStep s dir) (Respects s dir) w es) := by
  have sound := (quiet.sound (s := s) usage).throughout dir es
  refine ⟨fun pre post split => (sound pre post split).usage, fun pre e post split => leavesRows, ?_⟩
  intro allowed pre e post split
  exact (sound pre (e :: post) split).respects (allowed pre e post split)

end Runs

def plainSettings : Settings where
  sha256 := id
  peppers := [[]]
  agentEnrollmentSecret := none
  production := false
  warnOnly := false
  idText := fun _ => []

def oneDevice : Directory where
  organizations := fun _ => some ⟨0, .active, false⟩
  partners := fun _ => some ⟨.active, false, some 1⟩

def siteKey : EnrollmentKey where
  orgId := 0
  siteId := some 0
  key := ":k".toList
  keySecretHash := none
  usageCount := 0
  maxUsage := none
  expiresAt := none

def beforeEnrollment : EnrollWorld where
  db := {
    devices := fun _ => .unheld none
    deviceIds := []
    once := nodup_nil
    keys := fun k => .unheld (if k = 0 then some siteKey else none)
    keyIds := [0]
    granted := [] }
  proc := fun _ => .idle

def requestFor (hostname : String) : EnrollRequest where
  enrollmentKey := "k".toList
  providedSecret := []
  existingDeviceToken := []
  hostname := hostname.toList
  apiKey := hostname.toList
  watchdogApiKey := []
  helperApiKey := []

/-- The statements of a call that enrols a new device, up to the check of the limit. -/
def checking (t : ℕ) (hostname : String) : List (ℕ × Signal) :=
  (t, .enroll (requestFor hostname)) :: List.replicate 4 (t, .exec 0 t)

def writing (t : ℕ) : List (ℕ × Signal) := List.replicate 3 (t, .exec 0 t)

theorem beforeEnrollment_quiet : Quiet beforeEnrollment where
  resting _ := id
  devices _ := rfl
  keys _ := rfl
  listed := nofun

theorem beforeEnrollment_counted : UsageCounted beforeEnrollment where
  once := nodup_nil
  succeeded t k := by simp [beforeEnrollment, Stage.success]
  counted k key found := by
    simp only [beforeEnrollment, Row.committed_unheld] at found
    split_ifs at found
    cases found
    rfl
  bounded k key m found max := by
    simp only [beforeEnrollment, Row.committed_unheld] at found
    split_ifs at found
    cases found
    cases max

theorem one_device_enrolled :
    StepsMeet (enrollStep plainSettings oneDevice) (Respects plainSettings oneDevice) beforeEnrollment
      (checking 1 "a" ++ writing 1) :=
  (enrollment_limits beforeEnrollment_quiet beforeEnrollment_counted _).2.2 (by decide +kernel)

/-- Two calls count the devices before either has written one, and both go past the limit. -/
theorem two_devices_enrolled : Quiet beforeEnrollment ∧ UsageCounted beforeEnrollment ∧
    ¬StepsMeet (enrollStep plainSettings oneDevice) (Respects plainSettings oneDevice) beforeEnrollment
      (checking 1 "a" ++ checking 2 "b" ++ writing 1 ++ writing 2) := by
  refine ⟨beforeEnrollment_quiet, beforeEnrollment_counted, fun respects => ?_⟩
  have last := respects (checking 1 "a" ++ checking 2 "b" ++ writing 1 ++ List.replicate 2 (2, .exec 0 2))
    (2, .exec 0 2) [] rfl trivial
  have within := last.limit 0 ⟨.active, false, some 1⟩ 1 rfl rfl
  revert within
  decide +kernel

end RemudaRmm.Enrollment
