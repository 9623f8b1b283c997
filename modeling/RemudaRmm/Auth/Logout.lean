import RemudaRmm.Auth.RefreshRotation

/-! A logout among the refreshes of its session. The logout writes a cutoff, to which the issue time of every token
is compared, and revokes the token of its own cookie; it leaves the family alone. -/
namespace RemudaRmm.Auth
open Foundation Function Option
open AuthStage (loggedOut noConfusion)

def logoutWorld (now : ℕ) (token : RefreshToken) (cookie : Option Jti) (presents : ℕ → Jti) : SessionWorld :=
  sessionWorld now token fun t => if t = 0 then .logout cookie else .refresh (presents t)

/-- The call started more than a second after the logout had returned. -/
def Afterwards (w : SessionWorld) (t : ℕ) : Prop :=
  ∃ endedAt s, (w.proc 0).stage = .loggedOut endedAt ∧ (w.proc t).startedAt = some s ∧ endedAt + seconds 1 < s

def SessionOver (w : SessionWorld) : Prop := ∀ t, Afterwards w t → w.db.tokens (.minted t) = none

/-- When the logout reads its clock, every token issued in that second is the one in its cookie; no call mints after
that, other than one that starts afterwards; and such a call reads the keys while its token or the key is alive. -/
structure Unraced (w : SessionWorld) (e : ℕ × AuthAction) : Prop where
  settled : e.1 = 0 → (w.proc 0).stage = .start → ∀ j x, w.db.tokens j = some x →
    x.iat < epoch e.2.now ∨ (w.proc 0).call = .logout (some j)
  still : (w.proc e.1).stage = .minting → (w.proc 0).stage = .start ∨ Afterwards w e.1
  jti : Afterwards w e.1 → ∀ j, (w.proc e.1).call = .refresh j → (w.proc e.1).stage = .checkingJti →
    Prompt w.db (w.proc e.1) j e.2.now
  cutoff : Afterwards w e.1 → ∀ blanket, (w.proc e.1).stage = .checkingCutoff blanket →
    (∀ x, (w.proc e.1).payload = some x → e.2.now < seconds x.exp) ∨ w.db.revokedAfter.Held e.2.now

def AuthStage.Written : AuthStage → Prop
  | .verifyingCookie | .revokingCookie _ | .loggedOut _ => True
  | _ => False

def AuthStage.Refused : AuthStage → Prop
  | .selectingUser | .resolvingContext | .marking | .claiming | .minting | .returned .minted => False
  | _ => True

/-- The call has not got past the check of its `jti`. -/
def AuthStage.Withheld : AuthStage → Prop
  | .limiting | .checkingJti | .checkingGrace | .revokingSentinel | .revokingRow => True
  | .returned outcome => outcome ≠ .minted
  | _ => False

/-- Every token was issued by the cutoff or is the one in the cookie. -/
def Settled (d : SessionDb) (cookie : Option Jti) (cutoff : ℤ) : Prop :=
  ∀ j x, d.tokens j = some x → (x.iat : ℤ) ≤ cutoff ∨ cookie = some j

/-- The cutoff is kept for longer than a token that was issued before it can live. -/
def Lasting (entry : Entry ℤ) : Prop :=
  1000 * (entry.value + 1) + (seconds USER_REVOCATION_TTL_SECONDS : ℤ) ≤ entry.expiry

/-- What the logout has done so far. -/
structure LogoutSound (cookie : Option Jti) (d : SessionDb) (s : AuthStage) : Prop where
  read : ∀ c, s = .revokingUser c → Settled d cookie c ∧ 1000 * (c + 1) ≤ (d.clock : ℤ)
  written : s.Written → ∃ entry, d.revokedAfter = some entry ∧ Settled d cookie entry.value ∧ Lasting entry
  carried : ∀ j, s = .revokingCookie j → cookie = some j
  ended : ∀ endedAt, s = .loggedOut endedAt → ∀ j x, cookie = some j → d.tokens j = some x →
    d.revokedRefresh j ≠ none ∨ x.exp ≤ epoch endedAt

/-- A call that starts afterwards: it is refused by its cutoff, or withheld by its `jti` where the cutoff is older
than its token. -/
structure Late (d : SessionDb) (p : AuthProc) : Prop where
  refused : p.stage.Refused
  withheld : ∀ entry x, d.revokedAfter = some entry → p.payload = some x → entry.value < x.iat → p.stage.Withheld

structure LoggingOut (cookie : Option Jti) (w : SessionWorld) : Prop where
  recorded : Recorded w
  called : (w.proc 0).call = .logout cookie
  others : ∀ t, t ≠ 0 → ∃ j, (w.proc t).call = .refresh j
  logout : LogoutSound cookie w.db (w.proc 0).stage
  started : ∀ t s, (w.proc t).startedAt = some s → s ≤ w.db.clock
  fresh : ∀ t, (w.proc t).stage = .start → (w.proc t).payload = none
  alive : ∀ t s x, (w.proc t).startedAt = some s → (w.proc t).payload = some x → epoch s < x.exp
  late : ∀ t, Afterwards w t → Late w.db (w.proc t)

section Steps
variable {g t now : ℕ} {d d' : SessionDb} {p p' : AuthProc} {answer : Answer} {cookie : Option Jti}

theorem AuthMove.startedAt (move : AuthMove g t now d p answer d' p') {s : ℕ} (started : p'.startedAt = some s) :
    p.startedAt = some s ∨ (s = now ∧ p.stage = .start) := by
  cases move with
  | presented csrfOk called here =>
    unfold present at started
    dsimp only at started
    split_ifs at started
    · split at started <;> exact .inr ⟨(some.inj started).symm, here⟩
    · exact .inr ⟨(some.inj started).symm, here⟩
  | clockRead called here => exact .inr ⟨(some.inj started).symm, here⟩
  | _ => exact .inl started

theorem AuthMove.begun (move : AuthMove g t now d p answer d' p') : p'.stage ≠ .start := by
  intro start
  cases move with
  | presented csrfOk called here =>
    unfold present at start
    dsimp only at start
    split_ifs at start
    split at start <;> cases start
  | limited | jtiChecked | graceChecked | sentinelChecked | rowChecked | cutoffChecked | contextResolved | claimed =>
    dsimp only at start
    split_ifs at start
  | userSelected row called here =>
    rcases checkUser_cases row p.iat with passed | refused
    · rw [passed] at start
      cases start
    · rw [refused] at start
      cases start
  | cookieVerified called here =>
    unfold verifyCookie at start
    dsimp only at start
    split at start
    · split_ifs at start
    · cases start
  | sentinelSet | rowRevoked | userChecked | marked | minted | clockRead | userRevoked | cookieRevoked => cases start

theorem AuthMove.alive (move : AuthMove g t now d p answer d' p') (fresh : p.stage = .start → p.payload = none)
    (alive : ∀ s x, p.startedAt = some s → p.payload = some x → epoch s < x.exp) {s : ℕ} {x : RefreshToken}
    (started : p'.startedAt = some s) (found : p'.payload = some x) : epoch s < x.exp := by
  cases move with
  | presented csrfOk called here =>
    unfold present at started found
    dsimp only at started found
    split_ifs at started found
    · split at started
      case h_1 payload verified =>
        cases started
        simp only [verified] at found
        cases found
        exact of_decide_eq_true (filter_eq_some_iff.mp verified).2
      case h_2 missing =>
        simp only [missing] at found
        rw [fresh here] at found
        cases found
    · rw [fresh here] at found
      cases found
  | clockRead called here =>
    rw [fresh here] at found
    cases found
  | _ => exact alive s x started found

theorem AuthMove.revokedAfter {j : Jti} (move : AuthMove g t now d p answer d' p') (called : p.call = .refresh j) :
    d'.revokedAfter = d.revokedAfter := by
  cases move with
  | marked other here =>
    unfold markRotated
    split_ifs <;> rfl
  | clockRead other | userRevoked _ other | cookieVerified other | cookieRevoked _ other =>
    exact absurd (called.symm.trans other) AuthCall.noConfusion
  | _ => rfl

theorem Late.goOn (late : Late d p) {s s' : AuthStage} (here : p.stage = s) (refused : s'.Refused)
    (withheld : s.Withheld → s'.Withheld) (same : d'.revokedAfter = d.revokedAfter) :
    Late d' { p with stage := s' } := by
  refine ⟨refused, fun entry x written payload newer => withheld ?_⟩
  rw [same] at written
  exact here ▸ late.withheld entry x written payload newer

theorem Lasting.covers {entry : Entry ℤ} (lasting : Lasting entry) {x : RefreshToken}
    (life : x.exp ≤ x.iat + REFRESH_TOKEN_REVOCATION_TTL_SECONDS) (older : (x.iat : ℤ) ≤ entry.value) :
    seconds x.exp ≤ entry.expiry := by
  have user : seconds USER_REVOCATION_TTL_SECONDS =
      seconds REFRESH_TOKEN_REVOCATION_TTL_SECONDS + seconds ACCESS_TOKEN_REVOCATION_TTL_SECONDS := Nat.add_mul ..
  unfold Lasting at lasting
  unfold seconds at lasting user ⊢
  omega

theorem AuthMove.late (move : AuthMove g t now d p answer d' p') {j : Jti} {endedAt : ℕ}
    (called : p.call = .refresh j) (stored : Stored d) (sound : Sound d t p)
    (logout : LogoutSound cookie d (.loggedOut endedAt)) (late : p.stage ≠ .start → Late d p)
    (alive : ∀ x, p.payload = some x → epoch endedAt < x.exp) (jti : p.stage = .checkingJti → Prompt d p j now)
    (cutoff : ∀ blanket, p.stage = .checkingCutoff blanket →
      (∀ x, p.payload = some x → now < seconds x.exp) ∨ d.revokedAfter.Held now) : Late d' p' := by
  have same := move.revokedAfter called
  have later : ∀ {s : AuthStage}, p.stage = s → s ≠ .start → Late d p := fun here begun => late (here ▸ begun)
  obtain ⟨entry, written, settled, lasting⟩ := logout.written trivial
  cases move with
  | presented csrfOk other here =>
    unfold present
    dsimp only
    split_ifs
    · split
      · exact ⟨trivial, fun _ _ _ _ _ => trivial⟩
      · exact ⟨trivial, fun _ _ _ _ _ => RefreshOutcome.noConfusion⟩
    · exact ⟨trivial, fun _ _ _ _ _ => RefreshOutcome.noConfusion⟩
  | limited allowed other here | graceChecked other here =>
    refine (later here noConfusion).goOn here ?_ ?_ same <;> split_ifs <;>
      simp [AuthStage.Refused, AuthStage.Withheld]
  | jtiChecked other here =>
    obtain rfl := AuthCall.refresh.inj (called.symm.trans other)
    obtain ⟨x, payload, known⟩ := sound.payload j called (by rw [here]; trivial)
    have held := (jti here).held stored sound called (by rw [here]; trivial)
    refine ⟨by split_ifs <;> trivial, fun entry' x' written' payload' newer => ?_⟩
    cases written.symm.trans written'
    cases payload.symm.trans payload'
    have own : cookie = some j := (settled j x known).resolve_left (Int.not_le.mpr newer)
    have revoked : d.revokedRefresh j ≠ none :=
      (logout.ended endedAt rfl j x own known).resolve_right (Nat.not_le.mpr (alive x payload))
    obtain ⟨key, found⟩ := ne_none_iff_exists'.mp revoked
    rw [if_pos (by rw [Slot.get_of_held held found]; rfl)]
    trivial
  | sentinelSet other here => exact (later here noConfusion).goOn here trivial (fun _ => trivial) same
  | rowRevoked other here =>
    exact (later here noConfusion).goOn here trivial (fun _ => RefreshOutcome.noConfusion) same
  | sentinelChecked other here | rowChecked other here =>
    refine (later here noConfusion).goOn here ?_ (fun withheld => absurd withheld id) same
    split_ifs <;> trivial
  | userChecked other here =>
    exact (later here noConfusion).goOn here trivial (fun withheld => absurd withheld id) same
  | cutoffChecked blanket other here =>
    obtain ⟨x, payload, known⟩ := sound.payload j called (by rw [here]; trivial)
    have older : (x.iat : ℤ) ≤ entry.value := by
      by_contra newer
      have withheld := (later here noConfusion).withheld entry x written payload (Int.not_le.mp newer)
      rw [here] at withheld
      exact withheld
    have held : d.revokedAfter.Held now := by
      rcases cutoff blanket here with living | held
      · intro entry' written'
        cases written.symm.trans written'
        exact (living x payload).trans_le (lasting.covers (stored.issued j x known).2 older)
      · exact held
    have revoked : userTokenRevoked blanket (d.revokedAfter.get now) p.iat = true := by
      rw [Slot.get_of_held held written, AuthProc.iat, payload]
      exact decide_eq_true older
    rw [if_pos revoked]
    exact (later here noConfusion).goOn here trivial (fun _ => RefreshOutcome.noConfusion) same
  | userSelected _ _ here | contextResolved _ _ here | marked _ here | claimed _ here | minted _ here =>
    have refused := (later here noConfusion).refused
    rw [here] at refused
    exact absurd refused id
  | clockRead other | userRevoked _ other | cookieVerified other | cookieRevoked _ other =>
    exact absurd (called.symm.trans other) AuthCall.noConfusion

theorem Late.keep (late : Late d p) (same : d'.revokedAfter = d.revokedAfter) : Late d' p := by
  refine ⟨late.refused, fun entry x written => late.withheld entry x ?_⟩
  rw [← same]
  exact written

theorem logoutSound_start : LogoutSound cookie d .start :=
  ⟨fun _ here => noConfusion here, fun written => absurd written id,
    fun _ here => noConfusion here, fun _ here => noConfusion here⟩

theorem LogoutSound.keep {s : AuthStage} (sound : LogoutSound cookie d s) (tokens : d'.tokens = d.tokens)
    (clock : d.clock ≤ d'.clock) (same : d'.revokedAfter = d.revokedAfter)
    (revoked : ∀ j, d.revokedRefresh j ≠ none → d'.revokedRefresh j ≠ none) : LogoutSound cookie d' s where
  read c here := by
    obtain ⟨settled, onward⟩ := sound.read c here
    refine ⟨fun j x found => settled j x (tokens ▸ found), onward.trans ?_⟩
    exact Int.ofNat_le.mpr clock
  written here := by
    obtain ⟨entry, found, settled, lasting⟩ := sound.written here
    exact ⟨entry, same.trans found, fun j x known => settled j x (tokens ▸ known), lasting⟩
  carried := sound.carried
  ended endedAt here j x own known :=
    (sound.ended endedAt here j x own (tokens ▸ known)).imp (revoked j) id

theorem AuthMove.of_logout (move : AuthMove g t now d p answer d' p') (called : p.call = .logout cookie) :
    (p.stage = .start ∧ d' = d ∧ p'.stage = .revokingUser ((epoch now : ℤ) - 1)) ∨
      (∃ cutoff, p.stage = .revokingUser cutoff ∧
        d' = { d with
          revokedAccess := Slot.setex now (seconds ACCESS_TOKEN_REVOCATION_TTL_SECONDS) ()
          revokedAfter := Slot.setex now (seconds USER_REVOCATION_TTL_SECONDS) cutoff } ∧
        p'.stage = .verifyingCookie) ∨
      (p.stage = .verifyingCookie ∧ d' = d ∧ p'.stage = verifyCookie now cookie d) ∨
      ∃ j, p.stage = .revokingCookie j ∧ d' = (claimJti now j d).1 ∧ p'.stage = .loggedOut now := by
  cases move with
  | clockRead other here => exact .inl ⟨here, rfl, rfl⟩
  | userRevoked cutoff other here => exact .inr (.inl ⟨cutoff, here, rfl, rfl⟩)
  | cookieVerified other here =>
    obtain rfl := AuthCall.logout.inj (called.symm.trans other)
    exact .inr (.inr (.inl ⟨here, rfl, rfl⟩))
  | cookieRevoked j other here => exact .inr (.inr (.inr ⟨j, here, rfl, rfl⟩))
  | presented _ other | limited _ other | jtiChecked other | graceChecked other | sentinelSet other | rowRevoked other
  | sentinelChecked other | rowChecked other | userChecked other | cutoffChecked _ other | userSelected _ other
  | contextResolved _ other | marked other | claimed other | minted other =>
    exact absurd (called.symm.trans other) AuthCall.noConfusion

theorem logoutSound_verifyCookie (sound : LogoutSound cookie d .verifyingCookie) :
    LogoutSound cookie d (verifyCookie now cookie d) := by
  have written := sound.written trivial
  unfold verifyCookie
  cases cookie with
  | some j =>
    dsimp only
    split_ifs with verified
    · refine ⟨fun _ same => noConfusion same, fun _ => written, fun k same => ?_, fun _ same => noConfusion same⟩
      rw [AuthStage.revokingCookie.inj same]
    · refine ⟨fun _ same => noConfusion same, fun _ => written,
        fun _ same => noConfusion same, fun endedAt same k x own known => .inr ?_⟩
      obtain rfl := loggedOut.inj same
      cases own
      by_contra living
      rw [verifyToken, known, filter_some, if_pos (decide_eq_true (Nat.not_le.mp living))] at verified
      exact verified rfl
  | none =>
    exact ⟨fun _ same => noConfusion same, fun _ => written, fun _ same => noConfusion same,
      fun _ _ _ _ own => absurd own (some_ne_none _).symm⟩

theorem AuthMove.logout (move : AuthMove g t now d p answer d' p') (called : p.call = .logout cookie)
    (sound : LogoutSound cookie d p.stage) (onClock : d.clock = now)
    (settled : p.stage = .start → ∀ j x, d.tokens j = some x → x.iat < epoch now ∨ p.call = .logout (some j)) :
    LogoutSound cookie d' p'.stage := by
  rcases move.of_logout called with ⟨here, rfl, later⟩ | ⟨cutoff, here, rfl, later⟩ | ⟨here, rfl, later⟩ |
    ⟨jti, here, rfl, later⟩
  · rw [later]
    refine ⟨fun c same => ?_, fun written => absurd written id, fun _ same => noConfusion same,
      fun _ same => noConfusion same⟩
    obtain rfl := AuthStage.revokingUser.inj same
    have whole := seconds_epoch_le now
    unfold seconds at whole
    refine ⟨fun j x known => ?_, by omega⟩
    rcases settled here j x known with earlier | own
    · exact .inl (by omega)
    · exact .inr (AuthCall.logout.inj (called.symm.trans own))
  · rw [later]
    refine ⟨fun _ same => noConfusion same, fun _ => ?_, fun _ same => noConfusion same, fun _ same => noConfusion same⟩
    obtain ⟨before, onward⟩ := sound.read cutoff here
    refine ⟨⟨cutoff, now + seconds USER_REVOCATION_TTL_SECONDS⟩, rfl, before, ?_⟩
    unfold Lasting
    rw [onClock] at onward
    push_cast
    omega
  · rw [later]
    exact logoutSound_verifyCookie (here ▸ sound)
  · rw [later]
    have written := sound.written (by rw [here]; trivial)
    refine ⟨fun _ same => noConfusion same, fun _ => written, fun _ same => noConfusion same,
      fun endedAt same j x own known => .inl ?_⟩
    obtain rfl := some.inj ((sound.carried jti here).symm.trans own)
    rw [revokedRefresh_claimJti, if_pos rfl]
    exact Slot.setnx_ne_none now _ () _

theorem AuthMove.returns (move : AuthMove g t now d p answer d' p') (called : p.call = .logout cookie) {endedAt : ℕ}
    (ended : p'.stage = .loggedOut endedAt) : endedAt = now := by
  rcases move.of_logout called with ⟨-, -, later⟩ | ⟨_, -, -, later⟩ | ⟨-, -, later⟩ | ⟨_, -, -, later⟩ <;>
    rw [later] at ended
  · cases ended
  · cases ended
  · unfold verifyCookie at ended
    split at ended
    · split_ifs at ended
      exact (loggedOut.inj ended).symm
    · exact (loggedOut.inj ended).symm
  · exact (loggedOut.inj ended).symm

end Steps

section Runs
variable {g : ℕ} {cookie : Option Jti} {w next : SessionWorld} {e : ℕ × AuthAction}

theorem LoggingOut.mints_first (loggingOut : LoggingOut cookie w) (unraced : Unraced w e)
    (minting : (w.proc e.1).stage = .minting) : (w.proc 0).stage = .start := by
  rcases unraced.still minting with first | afterwards
  · exact first
  · have refused := (loggingOut.late e.1 afterwards).refused
    rw [minting] at refused
    exact absurd refused id

theorem LoggingOut.returned {d : SessionDb} {p : AuthProc} (loggingOut : LoggingOut cookie w) {now : ℕ}
    {answer : Answer} (onward : w.db.clock ≤ now)
    (move : AuthMove g 0 now { w.db with clock := now } (w.proc 0) answer d p) (u : ℕ) :
    ¬Afterwards ⟨d, update w.proc 0 p⟩ u := by
  rintro ⟨endedAt, s, ended, started, later⟩
  obtain rfl := move.returns loggingOut.called ended
  have early : s ≤ endedAt := by
    by_cases own : u = 0
    · subst own
      rcases move.startedAt started with before | ⟨same, -⟩
      · exact (loggingOut.started 0 s before).trans onward
      · exact same.le
    · simp only [update_of_ne own] at started
      exact (loggingOut.started u s started).trans onward
  exact absurd later (by omega)

theorem LoggingOut.late_refresh {d : SessionDb} {p : AuthProc} {j : Jti} (loggingOut : LoggingOut cookie w)
    (unraced : Unraced w e) (other : e.1 ≠ 0) (called : (w.proc e.1).call = .refresh j) (onward : w.db.clock ≤ e.2.now)
    (move : AuthMove g e.1 e.2.now { w.db with clock := e.2.now } (w.proc e.1) e.2.answer d p) {u : ℕ}
    (afterwards : Afterwards ⟨d, update w.proc e.1 p⟩ u) : Late d (update w.proc e.1 p u) := by
  obtain ⟨endedAt, s, ended, started, later⟩ := afterwards
  simp only [update_of_ne (Ne.symm other)] at ended
  by_cases own : u = e.1
  · subst own
    simp only [update_self] at started ⊢
    -- the call had started before, unless this is its first step
    have before : (w.proc e.1).stage ≠ .start → Afterwards w e.1 := by
      intro begun
      rcases move.startedAt started with before | ⟨-, start⟩
      · exact ⟨endedAt, s, ended, before, later⟩
      · exact absurd start begun
    obtain ⟨stored, sound⟩ := loggingOut.recorded.tick onward
    have logout : LogoutSound cookie { w.db with clock := e.2.now } (.loggedOut endedAt) := by
      rw [← ended]
      exact loggingOut.logout.keep rfl onward rfl fun _ => id
    refine move.late called stored (sound e.1) logout (fun begun => ?_) (fun x payload => ?_) (fun here => ?_)
      (fun blanket here => ?_)
    · exact (loggingOut.late e.1 (before begun)).keep rfl
    · by_cases start : (w.proc e.1).stage = .start
      · rw [loggingOut.fresh e.1 start] at payload
        cases payload
      · obtain ⟨endedAt', s', ended', started', later'⟩ := before start
        obtain rfl := loggedOut.inj (ended.symm.trans ended')
        have alive := loggingOut.alive e.1 s' x started' payload
        have behind : epoch endedAt ≤ epoch s' := Nat.div_le_div_right (by omega)
        exact behind.trans_lt alive
    · exact unraced.jti (before (by rw [here]; exact noConfusion)) j called here
    · exact unraced.cutoff (before (by rw [here]; exact noConfusion)) blanket here
  · simp only [update_of_ne own] at started ⊢
    exact (loggingOut.late u ⟨endedAt, s, ended, started, later⟩).keep (move.revokedAfter called)

theorem LoggingOut.step (loggingOut : LoggingOut cookie w) (unraced : Unraced w e)
    (stepped : authStep g w e = some next) : LoggingOut cookie next := by
  have recorded := loggingOut.recorded.step stepped
  obtain ⟨d, p, onward, move, rfl⟩ := authStep_moves stepped
  obtain ⟨clock, -, rest⟩ := move.writes
  have sound := ((loggingOut.recorded.tick onward).sound e.1)
  refine ⟨recorded, ?_, ?_, ?_, ?_, ?_, ?_, ?_⟩
  · by_cases own : e.1 = 0
    · simp only [own, update_self]
      exact move.call.trans (by rw [own]; exact loggingOut.called)
    · simp only [update_of_ne (Ne.symm own)]
      exact loggingOut.called
  · apply (forall_update_iff w.proc (p := fun t q => t ≠ 0 → ∃ j, q.call = .refresh j)).mpr
    refine ⟨fun other => ?_, fun t _ => loggingOut.others t⟩
    rw [move.call]
    exact loggingOut.others e.1 other
  · by_cases own : e.1 = 0
    · simp only [own, update_self]
      refine move.logout (by rw [own]; exact loggingOut.called) ?_ rfl fun here => ?_
      · rw [own]
        exact loggingOut.logout.keep rfl onward rfl fun _ => id
      · rw [own] at here ⊢
        exact unraced.settled own here
    · simp only [update_of_ne (Ne.symm own)]
      obtain ⟨j, called⟩ := loggingOut.others e.1 own
      by_cases minting : (w.proc e.1).stage = .minting
      · rw [loggingOut.mints_first unraced minting]
        exact logoutSound_start
      · refine loggingOut.logout.keep ?_ (by rw [clock]; exact onward) (move.revokedAfter called) ?_
        · rcases rest with ⟨tokens, -⟩ | ⟨k, -, rfl⟩ | ⟨k, -, here, -⟩
          · exact tokens
          · rfl
          · exact absurd here minting
        · exact (move.grows sound).revoked
  · apply (forall_update_iff w.proc (p := fun _ q => ∀ s, q.startedAt = some s → s ≤ d.clock)).mpr
    rw [clock]
    refine ⟨fun s started => ?_, fun t _ s started => (loggingOut.started t s started).trans onward⟩
    rcases move.startedAt started with before | ⟨same, -⟩
    · exact (loggingOut.started e.1 s before).trans onward
    · exact same.le
  · apply (forall_update_iff w.proc (p := fun _ q => q.stage = .start → q.payload = none)).mpr
    exact ⟨fun start => absurd start move.begun, fun t _ => loggingOut.fresh t⟩
  · apply (forall_update_iff w.proc
      (p := fun _ q => ∀ s x, q.startedAt = some s → q.payload = some x → epoch s < x.exp)).mpr
    refine ⟨fun s x => ?_, fun t _ => loggingOut.alive t⟩
    exact move.alive (loggingOut.fresh e.1) (loggingOut.alive e.1)
  · intro u afterwards
    by_cases own : e.1 = 0
    · obtain ⟨t, now, answer⟩ := e
      obtain rfl : t = 0 := own
      exact absurd afterwards (loggingOut.returned onward move u)
    · obtain ⟨j, called⟩ := loggingOut.others e.1 own
      exact loggingOut.late_refresh unraced own called onward move afterwards

theorem LoggingOut.sessionOver (loggingOut : LoggingOut cookie w) : SessionOver w := by
  intro t afterwards
  apply (loggingOut.recorded.sound t).unminted
  intro here
  have refused := (loggingOut.late t afterwards).refused
  rw [here] at refused
  exact refused

theorem loggingOut_logoutWorld {now : ℕ} {token : RefreshToken} (issued : seconds token.iat ≤ now)
    (life : token.exp ≤ token.iat + REFRESH_TOKEN_REVOCATION_TTL_SECONDS) (presents : ℕ → Jti) :
    LoggingOut cookie (logoutWorld now token cookie presents) where
  recorded := recorded_sessionWorld _ issued life
  called := rfl
  others t other := ⟨presents t, if_neg other⟩
  logout := logoutSound_start
  started _ _ started := absurd started (some_ne_none _).symm
  fresh _ _ := rfl
  alive _ _ _ started := absurd started (some_ne_none _).symm
  late _ := fun ⟨_, _, ended, _⟩ => absurd ended noConfusion

end Runs

/-- In every run whose steps are unraced, no call that starts more than a second after the logout has returned is
given a token. -/
theorem logout_ends_session (g : ℕ) {now : ℕ} {token : RefreshToken} (issued : seconds token.iat ≤ now)
    (life : token.exp ≤ token.iat + REFRESH_TOKEN_REVOCATION_TTL_SECONDS) (cookie : Option Jti) (presents : ℕ → Jti)
    {es : List (ℕ × AuthAction)} (unraced : Meets (authStep g) Unraced (logoutWorld now token cookie presents) es)
    {w : SessionWorld} (reach : run (authStep g) (logoutWorld now token cookie presents) es = some w) :
    SessionOver w := by
  have start : LoggingOut cookie (logoutWorld now token cookie presents) :=
    loggingOut_logoutWorld issued life presents
  exact (run_invariant (fun _ _ _ loggingOut unraced stepped => loggingOut.step unraced stepped) start unraced
    reach).sessionOver

theorem unraced_before {g : ℕ} {w : SessionWorld} (waiting : (w.proc 0).stage = .start) {es : List (ℕ × AuthAction)}
    (others : ∀ e ∈ es, e.1 ≠ 0) : Meets (authStep g) Unraced w es := by
  refine Meets.of_invariant (fun v : SessionWorld => (v.proc 0).stage = .start)
    (fun v e member next start stepped => ?_) (fun v e member start => ?_) waiting
  · obtain ⟨d, p, -, -, rfl⟩ := authStep_moves stepped
    simp only [update_of_ne (Ne.symm (others e member))]
    exact start
  · have early : ¬Afterwards v e.1 := fun ⟨_, _, ended, _⟩ => noConfusion (start.symm.trans ended)
    exact ⟨fun own => absurd own (others e member), fun _ => .inl start, fun late => absurd late early,
      fun late => absurd late early⟩

def AuthStage.Aside : AuthStage → Prop
  | .minting | .checkingJti | .checkingCutoff _ => False
  | _ => True

theorem unraced_aside {w : SessionWorld} {e : ℕ × AuthAction} (begun : e.1 = 0 → (w.proc 0).stage ≠ .start)
    (aside : (w.proc e.1).stage.Aside) : Unraced w e := by
  have elsewhere : ∀ {s : AuthStage}, (w.proc e.1).stage = s → s.Aside := fun here => here ▸ aside
  exact ⟨fun own start => absurd start (begun own), fun here => absurd (elsewhere here) id,
    fun _ _ _ here => absurd (elsewhere here) id, fun _ _ here => absurd (elsewhere here) id⟩

/-- The first refresh presents the token of the login, and the second what the first was given. -/
def inTurn (t : ℕ) : Jti := if t = 1 then .login else .minted 1

/-- A refresh, the logout with the new token in its cookie, and a refresh with that token five seconds later. -/
def refusedRefresh : List (ℕ × AuthAction) :=
  (opening 1 1000 ++ checks 1 1000 ++ exchange 1 1000) ++
    [command 0 5000, command 0 5000, command 0 5000, command 0 5000] ++ opening 2 10000 ++
      [command 2 10000, command 2 10000, command 2 10000, command 2 10000]

/-- A refresh that has passed its checks when the logout comes, and claims its token before the logout does. -/
def racedLogout : List (ℕ × AuthAction) :=
  opening 1 10000 ++ checks 1 10000 ++ [command 0 10500, command 0 10500, command 0 10500] ++ exchange 1 10600 ++
    [command 0 10700] ++ opening 2 20000 ++ checks 2 20000 ++ exchange 2 20000

theorem logout_ends_session_refused :
    ∃ w, run (authStep 15) (logoutWorld 0 weekToken (some (.minted 1)) inTurn) refusedRefresh = some w ∧
      Afterwards w 2 ∧ SessionOver w := by
  have ran : run (authStep 15) (logoutWorld 0 weekToken (some (.minted 1)) inTurn) refusedRefresh = some _ := rfl
  refine ⟨_, ran, ⟨5000, 10000, rfl, rfl, by decide⟩, ?_⟩
  refine logout_ends_session 15 (by decide) (by decide) (some (.minted 1)) inTurn ?_ ran
  have first : Meets (authStep 15) Unraced (logoutWorld 0 weekToken (some (.minted 1)) inTurn)
      (opening 1 1000 ++ checks 1 1000 ++ exchange 1 1000) := unraced_before rfl (by decide)
  refine ((first.append fun mid reach => ?_).append fun mid reach => ?_).append fun mid reach => ?_
  · cases reach
    refine .cons ⟨fun _ _ j x known => ?_, fun here => noConfusion here,
      fun _ _ _ here => noConfusion here, fun _ _ here => noConfusion here⟩ rfl ?_
    · cases j with
      | login =>
        have same : x = weekToken := (some.inj known).symm
        rw [same]
        exact .inl (by decide)
      | minted u =>
        by_cases own : u = 1
        · exact .inr (by rw [own]; rfl)
        · have absent : (logoutWorld 0 weekToken (some (.minted 1)) inTurn).db.tokens (.minted u) = some x :=
            (update_of_ne (fun same => own (Jti.minted.inj same)) ..).symm.trans known
          cases absent
    refine .cons (unraced_aside (fun _ => noConfusion) trivial) rfl ?_
    refine .cons (unraced_aside (fun _ => noConfusion) trivial) rfl ?_
    exact .cons (unraced_aside (fun _ => noConfusion) trivial) rfl trivial
  · cases reach
    refine .cons (unraced_aside (by decide) trivial) rfl ?_
    exact .cons (unraced_aside (by decide) trivial) rfl trivial
  · cases reach
    refine .cons ⟨fun own => absurd own (by decide), fun here => noConfusion here,
      fun _ _ _ _ => .inl fun x found => ?_, fun _ _ here => noConfusion here⟩ rfl ?_
    · have same : x = ⟨1, 604801⟩ := (some.inj found).symm
      rw [same]
      decide
    refine .cons (unraced_aside (by decide) trivial) rfl ?_
    refine .cons (unraced_aside (by decide) trivial) rfl ?_
    exact .cons (unraced_aside (by decide) trivial) rfl trivial

theorem racedLogout_escapes :
    ∃ w, run (authStep 15) (logoutWorld 0 weekToken (some .login) inTurn) racedLogout = some w ∧ ¬SessionOver w := by
  refine ⟨_, rfl, fun ended => ?_⟩
  have refused := ended 2 ⟨10700, 20000, rfl, rfl, by decide⟩
  exact absurd refused (by decide)

end RemudaRmm.Auth
