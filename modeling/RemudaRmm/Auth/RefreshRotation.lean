import Mathlib.Tactic.Linarith
import RemudaRmm.Auth.RefreshTokens

/-! The rotation of refresh tokens under every interleaving of the calls of a session: what a call that claims a
token relies on, the replay of a token that was exchanged before, and calls that start after the family is revoked. -/
namespace RemudaRmm.Auth
open Foundation Function Option AuthCall

/-- What one command or statement of a call can do. -/
inductive AuthMove (g t now : ℕ) (d : SessionDb) (p : AuthProc) : Answer → SessionDb → AuthProc → Prop
  | presented {jti : Jti} (csrfOk : Bool) (called : p.call = .refresh jti) (here : p.stage = .start) :
      AuthMove g t now d p (.request csrfOk) d (present now jti csrfOk d p)
  | limited {jti : Jti} (allowed : Bool) (called : p.call = .refresh jti) (here : p.stage = .limiting) :
      AuthMove g t now d p (.limiter allowed) d
        { p with stage := if allowed then .checkingJti else .returned .limited }
  | jtiChecked {jti : Jti} (called : p.call = .refresh jti) (here : p.stage = .checkingJti) :
      AuthMove g t now d p .command d
        { p with stage := if ((d.revokedRefresh jti).get now).isSome then .checkingGrace else .checkingSentinel }
  | graceChecked {jti : Jti} (called : p.call = .refresh jti) (here : p.stage = .checkingGrace) :
      AuthMove g t now d p .command d
        { p with stage :=
          if g ≠ 0 ∧ ((d.rotationGrace jti).get now).isSome then .returned .raced else .revokingSentinel }
  | sentinelSet {jti : Jti} (called : p.call = .refresh jti) (here : p.stage = .revokingSentinel) :
      AuthMove g t now d p .command
        { d with revokedFamily := Slot.setex now (seconds REFRESH_FAMILY_REVOCATION_TTL_SECONDS) () }
        { p with stage := .revokingRow }
  | rowRevoked {jti : Jti} (called : p.call = .refresh jti) (here : p.stage = .revokingRow) :
      AuthMove g t now d p .command { d with familyRevokedAt := d.familyRevokedAt.or (some now) }
        { p with stage := .returned .reuseDetected }
  | sentinelChecked {jti : Jti} (called : p.call = .refresh jti) (here : p.stage = .checkingSentinel) :
      AuthMove g t now d p .command d
        { p with stage := if (d.revokedFamily.get now).isSome then .returned .invalid else .checkingRow }
  | rowChecked {jti : Jti} (called : p.call = .refresh jti) (here : p.stage = .checkingRow) :
      AuthMove g t now d p .command d
        { p with stage := if d.familyRevokedAt.isSome then .returned .invalid else .checkingUser }
  | userChecked {jti : Jti} (called : p.call = .refresh jti) (here : p.stage = .checkingUser) :
      AuthMove g t now d p .command d { p with stage := .checkingCutoff (d.revokedAccess.get now).isSome }
  | cutoffChecked {jti : Jti} (blanket : Bool) (called : p.call = .refresh jti)
      (here : p.stage = .checkingCutoff blanket) : AuthMove g t now d p .command d
        { p with stage :=
          if userTokenRevoked blanket (d.revokedAfter.get now) p.iat then .returned .invalid else .selectingUser }
  | userSelected {jti : Jti} (row : Option UserRow) (called : p.call = .refresh jti)
      (here : p.stage = .selectingUser) : AuthMove g t now d p (.user row) d { p with stage := checkUser row p.iat }
  | contextResolved {jti : Jti} (member : Bool) (called : p.call = .refresh jti)
      (here : p.stage = .resolvingContext) :
      AuthMove g t now d p (.context member) d { p with stage := if member then .marking else .returned .invalid }
  | marked {jti : Jti} (called : p.call = .refresh jti) (here : p.stage = .marking) :
      AuthMove g t now d p .command (markRotated g now jti d) { p with stage := .claiming }
  | claimed {jti : Jti} (called : p.call = .refresh jti) (here : p.stage = .claiming) :
      AuthMove g t now d p .command (claimJti now jti d).1
        { p with stage := if (claimJti now jti d).2 then .minting else .returned .raced }
  | minted {jti : Jti} (called : p.call = .refresh jti) (here : p.stage = .minting) :
      AuthMove g t now d p .command (mint t now jti d) { p with stage := .returned .minted }
  | clockRead {cookie : Option Jti} (called : p.call = .logout cookie) (here : p.stage = .start) :
      AuthMove g t now d p .command d
        { p with stage := .revokingUser ((epoch now : ℤ) - 1), startedAt := some now }
  | userRevoked {cookie : Option Jti} (cutoff : ℤ) (called : p.call = .logout cookie)
      (here : p.stage = .revokingUser cutoff) : AuthMove g t now d p .command
        { d with
          revokedAccess := Slot.setex now (seconds ACCESS_TOKEN_REVOCATION_TTL_SECONDS) ()
          revokedAfter := Slot.setex now (seconds USER_REVOCATION_TTL_SECONDS) cutoff }
        { p with stage := .verifyingCookie }
  | cookieVerified {cookie : Option Jti} (called : p.call = .logout cookie) (here : p.stage = .verifyingCookie) :
      AuthMove g t now d p .command d { p with stage := verifyCookie now cookie d }
  | cookieRevoked {cookie : Option Jti} (jti : Jti) (called : p.call = .logout cookie)
      (here : p.stage = .revokingCookie jti) :
      AuthMove g t now d p .command (claimJti now jti d).1 { p with stage := .loggedOut now }

section Moves
variable {g t now : ℕ} {d d' : SessionDb} {p p' : AuthProc} {answer : Answer}

theorem refreshAct_moves {jti : Jti} (called : p.call = .refresh jti)
    (acted : refreshAct g t now jti answer d p = some (d', p')) : AuthMove g t now d p answer d' p' := by
  unfold refreshAct at acted
  split at acted
  case h_1 csrfOk here =>
    cases acted
    exact .presented csrfOk called here
  case h_2 allowed here =>
    cases acted
    exact .limited allowed called here
  case h_3 here =>
    cases acted
    exact .jtiChecked called here
  case h_4 here =>
    cases acted
    exact .graceChecked called here
  case h_5 here =>
    cases acted
    exact .sentinelSet called here
  case h_6 here =>
    cases acted
    exact .rowRevoked called here
  case h_7 here =>
    cases acted
    exact .sentinelChecked called here
  case h_8 here =>
    cases acted
    exact .rowChecked called here
  case h_9 here =>
    cases acted
    exact .userChecked called here
  case h_10 blanket here =>
    cases acted
    exact .cutoffChecked blanket called here
  case h_11 row here =>
    cases acted
    exact .userSelected row called here
  case h_12 member here =>
    cases acted
    exact .contextResolved member called here
  case h_13 here =>
    cases acted
    exact .marked called here
  case h_14 here =>
    cases acted
    exact .claimed called here
  case h_15 here =>
    cases acted
    exact .minted called here
  case h_16 => cases acted

theorem logoutAct_moves {cookie : Option Jti} (called : p.call = .logout cookie)
    (acted : logoutAct now cookie answer d p = some (d', p')) : AuthMove g t now d p answer d' p' := by
  unfold logoutAct at acted
  split at acted
  case h_1 here =>
    cases acted
    exact .clockRead called here
  case h_2 cutoff here =>
    cases acted
    exact .userRevoked cutoff called here
  case h_3 here =>
    cases acted
    exact .cookieVerified called here
  case h_4 jti here =>
    cases acted
    exact .cookieRevoked jti called here
  case h_5 => cases acted

end Moves

theorem authStep_moves {g : ℕ} {w next : SessionWorld} {e : ℕ × AuthAction} (stepped : authStep g w e = some next) :
    ∃ d p, w.db.clock ≤ e.2.now ∧
      AuthMove g e.1 e.2.now { w.db with clock := e.2.now } (w.proc e.1) e.2.answer d p ∧
      next = ⟨d, update w.proc e.1 p⟩ := by
  obtain ⟨d, p, acted, rfl⟩ := World.step_eq_some stepped
  unfold authAct at acted
  split_ifs at acted with onward
  refine ⟨d, p, onward, ?_, rfl⟩
  cases called : (w.proc e.1).call with
  | refresh jti => exact refreshAct_moves called (by simpa only [called] using acted)
  | logout cookie => exact logoutAct_moves called (by simpa only [called] using acted)

def AuthStage.Past : AuthStage → Prop
  | .start | .returned _ | .revokingUser _ | .verifyingCookie | .revokingCookie _ | .loggedOut _ => False
  | _ => True

def AuthStage.Barred : AuthStage → Prop
  | .checkingUser | .checkingCutoff _ | .selectingUser | .resolvingContext | .marking | .claiming | .minting
  | .returned .minted => False
  | _ => True

structure Grows (d d' : SessionDb) : Prop where
  tokens : ∀ j x, d.tokens j = some x → d'.tokens j = some x
  revoked : ∀ j, d.revokedRefresh j ≠ none → d'.revokedRefresh j ≠ none
  family : d.familyRevokedAt ≠ none → d'.familyRevokedAt ≠ none
  successors : ∀ j, d.successors j ≠ [] → d'.successors j ≠ []

structure Sound (d : SessionDb) (t : ℕ) (p : AuthProc) : Prop where
  payload : ∀ j, p.call = .refresh j → p.stage.Past → ∃ x, p.payload = some x ∧ d.tokens j = some x
  cookie : ∀ j, p.stage = .revokingCookie j → d.tokens j ≠ none
  claim : ∀ j, p.call = .refresh j → p.stage = .minting → d.revokedRefresh j ≠ none
  unminted : p.stage ≠ .returned .minted → d.tokens (.minted t) = none
  barred : p.orphaned = true → d.familyRevokedAt ≠ none ∧ p.stage.Barred

/-- The keys outlive the tokens they revoke. -/
structure Stored (d : SessionDb) : Prop where
  issued : ∀ j x, d.tokens j = some x → seconds x.iat ≤ d.clock ∧ x.exp ≤ x.iat + REFRESH_TOKEN_REVOCATION_TTL_SECONDS
  covered : ∀ j x entry, d.tokens j = some x → d.revokedRefresh j = some entry → seconds x.exp ≤ entry.expiry
  known : ∀ j, d.revokedRefresh j ≠ none → d.tokens j ≠ none
  unclaimed : ∀ j, d.revokedRefresh j = none → d.successors j = []

structure Recorded (w : SessionWorld) : Prop where
  stored : Stored w.db
  sound : ∀ t, Sound w.db t (w.proc t)

section Recorded
variable {g t now : ℕ} {d d' : SessionDb} {p p' : AuthProc} {answer : Answer}

theorem Sound.grow (sound : Sound d t p) (grows : Grows d d') (own : d'.tokens (.minted t) = d.tokens (.minted t)) :
    Sound d' t p where
  payload j called past := by
    obtain ⟨x, same, known⟩ := sound.payload j called past
    exact ⟨x, same, grows.tokens j x known⟩
  cookie j here := by
    obtain ⟨x, known⟩ := ne_none_iff_exists'.mp (sound.cookie j here)
    rw [grows.tokens j x known]
    exact some_ne_none x
  claim j called here := grows.revoked j (sound.claim j called here)
  unminted here := own.trans (sound.unminted here)
  barred orphaned := ⟨grows.family (sound.barred orphaned).1, (sound.barred orphaned).2⟩

theorem AuthMove.writes (move : AuthMove g t now d p answer d' p') :
    d'.clock = d.clock ∧ (d.familyRevokedAt ≠ none → d'.familyRevokedAt ≠ none) ∧
      ((d'.tokens = d.tokens ∧ d'.successors = d.successors ∧ d'.revokedRefresh = d.revokedRefresh) ∨
        (∃ j, ((p.call = .refresh j ∧ p.stage = .claiming) ∨ p.stage = .revokingCookie j) ∧
          d' = (claimJti now j d).1) ∨
        (∃ j, p.call = .refresh j ∧ p.stage = .minting ∧ p'.stage = .returned .minted ∧ d' = mint t now j d)) := by
  cases move with
  | claimed called here => exact ⟨rfl, id, .inr (.inl ⟨_, .inl ⟨called, here⟩, rfl⟩)⟩
  | cookieRevoked jti called here => exact ⟨rfl, id, .inr (.inl ⟨jti, .inr here, rfl⟩)⟩
  | minted called here => exact ⟨rfl, id, .inr (.inr ⟨_, called, here, rfl, rfl⟩)⟩
  | rowRevoked called here =>
    refine ⟨rfl, fun revoked => ?_, .inl ⟨rfl, rfl, rfl⟩⟩
    obtain ⟨time, same⟩ := ne_none_iff_exists'.mp revoked
    simp only [same, some_or]
    exact some_ne_none time
  | marked called here =>
    unfold markRotated
    split_ifs <;> exact ⟨rfl, id, .inl ⟨rfl, rfl, rfl⟩⟩
  | _ => exact ⟨rfl, id, .inl ⟨rfl, rfl, rfl⟩⟩

theorem AuthMove.call (move : AuthMove g t now d p answer d' p') : p'.call = p.call := by
  cases move with
  | presented csrfOk called here =>
    unfold present
    dsimp only
    split_ifs
    · split <;> rfl
    · rfl
  | _ => rfl

theorem revokedRefresh_claimJti (j k : Jti) :
    (claimJti now j d).1.revokedRefresh k =
      if k = j then ((d.revokedRefresh j).setnx now (seconds REFRESH_TOKEN_REVOCATION_TTL_SECONDS) ()).1
      else d.revokedRefresh k := by
  unfold claimJti
  by_cases same : k = j
  · subst same
    simp only [update_self, if_true]
  · simp only [update_of_ne same, if_neg same]

theorem claimJti_ne_none (j k : Jti) (revoked : d.revokedRefresh k ≠ none) :
    (claimJti now j d).1.revokedRefresh k ≠ none := by
  rw [revokedRefresh_claimJti]
  split_ifs
  · exact Slot.setnx_ne_none now _ () _
  · exact revoked

theorem AuthMove.grows (move : AuthMove g t now d p answer d' p') (sound : Sound d t p) : Grows d d' := by
  obtain ⟨-, family, rest⟩ := move.writes
  rcases rest with ⟨tokens, successors, revoked⟩ | ⟨j, -, rfl⟩ | ⟨j, called, here, -, rfl⟩
  · refine ⟨fun k x => ?_, fun k => ?_, family, fun k => ?_⟩
    · rw [tokens]
      exact id
    · rw [revoked]
      exact id
    · rw [successors]
      exact id
  · exact ⟨fun k x => id, fun k => claimJti_ne_none j k, id, fun k => id⟩
  · have unminted : d.tokens (.minted t) = none := by
      apply sound.unminted
      rw [here]
      exact fun same => AuthStage.noConfusion same
    refine ⟨fun k x found => ?_, fun k => id, id, fun k => ?_⟩
    · have other : k ≠ .minted t := by
        rintro rfl
        rw [unminted] at found
        cases found
      exact (update_of_ne other ..).trans found
    · intro some_before
      by_cases same : k = j
      · subst same
        simp only [mint, update_self]
        exact List.cons_ne_nil _ _
      · simp only [mint, update_of_ne same]
        exact some_before

theorem seconds_epoch_le (now : ℕ) : seconds (epoch now) ≤ now := Nat.div_mul_le_self now 1000

theorem Stored.claim (stored : Stored d) {j : Jti} (known : d.tokens j ≠ none) (at_clock : d.clock ≤ now) :
    Stored (claimJti now j d).1 where
  issued := stored.issued
  covered k x entry found revoked := by
    rw [revokedRefresh_claimJti] at revoked
    split_ifs at revoked with same
    · subst same
      unfold Slot.setnx at revoked
      split_ifs at revoked
      · exact stored.covered k x entry found revoked
      · cases revoked
        obtain ⟨issued, life⟩ := stored.issued k x found
        have total : seconds x.exp ≤ seconds (x.iat + REFRESH_TOKEN_REVOCATION_TTL_SECONDS) :=
          Nat.mul_le_mul_right 1000 life
        have sum : seconds (x.iat + REFRESH_TOKEN_REVOCATION_TTL_SECONDS) =
            seconds x.iat + seconds REFRESH_TOKEN_REVOCATION_TTL_SECONDS := Nat.add_mul ..
        dsimp only
        omega
    · exact stored.covered k x entry found revoked
  known k revoked := by
    by_cases same : k = j
    · subst same
      exact known
    · rw [revokedRefresh_claimJti, if_neg same] at revoked
      exact stored.known k revoked
  unclaimed k revoked := by
    rw [revokedRefresh_claimJti] at revoked
    split_ifs at revoked with same
    · exact absurd revoked (Slot.setnx_ne_none now _ () _)
    · exact stored.unclaimed k revoked

theorem Stored.mint (stored : Stored d) {j : Jti} (claimed : d.revokedRefresh j ≠ none)
    (unminted : d.tokens (.minted t) = none) (at_clock : d.clock = now) : Stored (mint t now j d) where
  issued k x found := by
    by_cases same : k = .minted t
    · subst same
      simp only [RemudaRmm.Auth.mint, update_self] at found
      cases found
      refine ⟨?_, Nat.le_refl _⟩
      simp only [RemudaRmm.Auth.mint, at_clock]
      exact seconds_epoch_le now
    · simp only [RemudaRmm.Auth.mint, update_of_ne same] at found
      exact stored.issued k x found
  covered k x entry found revoked := by
    have other : k ≠ .minted t := by
      rintro rfl
      exact stored.known (.minted t) (revoked.trans_ne (some_ne_none entry)) unminted
    simp only [RemudaRmm.Auth.mint, update_of_ne other] at found
    exact stored.covered k x entry found revoked
  known k revoked := by
    by_cases same : k = .minted t
    · subst same
      simp only [RemudaRmm.Auth.mint, update_self]
      exact some_ne_none _
    · simp only [RemudaRmm.Auth.mint, update_of_ne same]
      exact stored.known k revoked
  unclaimed k revoked := by
    have other : k ≠ j := by
      rintro rfl
      exact claimed revoked
    simp only [RemudaRmm.Auth.mint, update_of_ne other]
    exact stored.unclaimed k revoked

theorem AuthMove.stored (move : AuthMove g t now d p answer d' p') (stored : Stored d) (sound : Sound d t p)
    (at_clock : d.clock = now) : Stored d' := by
  obtain ⟨clock, -, rest⟩ := move.writes
  rcases rest with ⟨tokens, successors, revoked⟩ | ⟨j, held, rfl⟩ | ⟨j, called, here, -, rfl⟩
  · obtain ⟨issued, covered, known, unclaimed⟩ := stored
    refine ⟨?_, ?_, ?_, ?_⟩
    · rw [tokens, clock]
      exact issued
    · rw [tokens, revoked]
      exact covered
    · rw [tokens, revoked]
      exact known
    · rw [successors, revoked]
      exact unclaimed
  · refine stored.claim ?_ at_clock.le
    rcases held with ⟨called, here⟩ | here
    · obtain ⟨x, -, known⟩ := sound.payload j called (by rw [here]; trivial)
      rw [known]
      exact some_ne_none x
    · exact sound.cookie j here
  · refine stored.mint (sound.claim j called here) (sound.unminted ?_) at_clock
    rw [here]
    exact fun same => AuthStage.noConfusion same

/-- A passage from one stage to another by which a call neither claims nor mints. -/
structure Passage (d : SessionDb) (s s' : AuthStage) : Prop where
  begun : s ≠ .returned .minted
  past : s'.Past → s.Past
  cookie : ∀ j, s' = .revokingCookie j → d.tokens j ≠ none
  minting : s' ≠ .minting
  barred : d.familyRevokedAt ≠ none → s.Barred → s'.Barred

theorem Sound.passage (sound : Sound d t p) {s s' : AuthStage} (here : p.stage = s) (grows : Grows d d')
    (own : d'.tokens (.minted t) = d.tokens (.minted t)) (passage : Passage d s s') :
    Sound d' t { p with stage := s' } where
  payload j called later := by
    obtain ⟨x, same, known⟩ := sound.payload j called (here ▸ passage.past later)
    exact ⟨x, same, grows.tokens j x known⟩
  cookie j here := by
    obtain ⟨x, known⟩ := ne_none_iff_exists'.mp (passage.cookie j here)
    rw [grows.tokens j x known]
    exact some_ne_none x
  claim _ _ here := absurd here passage.minting
  unminted _ := own.trans (sound.unminted (here ▸ passage.begun))
  barred orphaned := by
    obtain ⟨revoked, before⟩ := sound.barred orphaned
    exact ⟨grows.family revoked, passage.barred revoked (here ▸ before)⟩

theorem checkUser_cases (row : Option UserRow) (iat : ℕ) :
    checkUser row iat = .resolvingContext ∨ checkUser row iat = .returned .invalid := by
  unfold checkUser
  split
  · split_ifs
    · exact .inl rfl
    · exact .inr rfl
  · exact .inr rfl

theorem Sound.present {j : Jti} (sound : Sound d t p) (csrfOk : Bool) (called : p.call = .refresh j)
    (here : p.stage = .start) : Sound d t (present now j csrfOk d p) := by
  have unminted : d.tokens (.minted t) = none := sound.unminted (by rw [here]; exact AuthStage.noConfusion)
  have family : d.familyRevokedAt.isSome = true → d.familyRevokedAt ≠ none := isSome_iff_ne_none.mp
  unfold RemudaRmm.Auth.present
  dsimp only
  split_ifs
  · cases verified : verifyToken d now j with
    | none =>
      exact ⟨fun _ _ past => absurd past id, fun _ same => AuthStage.noConfusion same,
        fun _ _ same => AuthStage.noConfusion same, fun _ => unminted, fun orphaned => ⟨family orphaned, trivial⟩⟩
    | some payload =>
      refine ⟨fun k other _ => ⟨payload, rfl, ?_⟩, fun _ same => AuthStage.noConfusion same,
        fun _ _ same => AuthStage.noConfusion same, fun _ => unminted, fun orphaned => ⟨family orphaned, trivial⟩⟩
      obtain rfl := refresh.inj (called.symm.trans other)
      exact (filter_eq_some_iff.mp verified).1
  · exact ⟨fun _ _ past => absurd past id, fun _ same => AuthStage.noConfusion same,
      fun _ _ same => AuthStage.noConfusion same, fun _ => unminted, fun orphaned => ⟨family orphaned, trivial⟩⟩

theorem passage_verifyCookie (cookie : Option Jti) : Passage d .verifyingCookie (verifyCookie now cookie d) := by
  unfold verifyCookie
  split
  case h_1 jti =>
    split_ifs with verified
    · refine ⟨AuthStage.noConfusion, fun past => absurd past id, fun j same => ?_, AuthStage.noConfusion,
        fun _ _ => trivial⟩
      obtain rfl := AuthStage.revokingCookie.inj same
      obtain ⟨x, found⟩ := isSome_iff_exists.mp verified
      rw [(filter_eq_some_iff.mp found).1]
      exact some_ne_none x
    · constructor <;> simp [AuthStage.Past, AuthStage.Barred]
  case h_2 => constructor <;> simp [AuthStage.Past, AuthStage.Barred]

theorem AuthMove.sound (move : AuthMove g t now d p answer d' p') (sound : Sound d t p) : Sound d' t p' := by
  have grows := move.grows sound
  cases move with
  | presented csrfOk called here => exact sound.present csrfOk called here
  | limited allowed called here | jtiChecked called here | graceChecked called here | sentinelChecked called here
  | cutoffChecked blanket called here | contextResolved member called here =>
    refine sound.passage here grows rfl ?_
    split_ifs <;> constructor <;> simp [AuthStage.Past, AuthStage.Barred]
  | sentinelSet called here | rowRevoked called here | userChecked called here | userRevoked cutoff called here
  | cookieRevoked jti called here =>
    refine sound.passage here grows rfl ?_
    constructor <;> simp [AuthStage.Past, AuthStage.Barred]
  | rowChecked called here =>
    refine sound.passage here grows rfl ?_
    split_ifs with revoked
    · constructor <;> simp [AuthStage.Past, AuthStage.Barred]
    · rw [not_isSome_iff_eq_none] at revoked
      constructor <;> simp [AuthStage.Past, AuthStage.Barred, revoked]
  | userSelected row called here =>
    refine sound.passage here grows rfl ?_
    rcases checkUser_cases row p.iat with passed | refused
    · rw [passed]
      constructor <;> simp [AuthStage.Past, AuthStage.Barred]
    · rw [refused]
      constructor <;> simp [AuthStage.Past, AuthStage.Barred]
  | marked called here =>
    have same : ∀ jti, (markRotated g now jti d).tokens = d.tokens := by
      intro jti
      unfold markRotated
      split_ifs <;> rfl
    refine sound.passage here grows (congrFun (same _) _) ?_
    constructor <;> simp [AuthStage.Past, AuthStage.Barred]
  | claimed called here =>
    refine ⟨fun j other _ => ?_, fun j same => ?_, fun j other _ => ?_, fun _ => ?_, fun orphaned => ?_⟩
    · obtain ⟨x, same, known⟩ := sound.payload j other (by rw [here]; trivial)
      exact ⟨x, same, known⟩
    · dsimp only at same
      split_ifs at same
    · obtain rfl := refresh.inj (called.symm.trans other)
      rw [revokedRefresh_claimJti, if_pos rfl]
      exact Slot.setnx_ne_none now _ () _
    · exact sound.unminted (by rw [here]; exact AuthStage.noConfusion)
    · have barred := (sound.barred orphaned).2
      rw [here] at barred
      exact absurd barred id
  | minted called here =>
    refine ⟨fun _ _ past => absurd past id, fun _ same => AuthStage.noConfusion same,
      fun _ _ same => AuthStage.noConfusion same, fun other => absurd rfl other, fun orphaned => ?_⟩
    have barred := (sound.barred orphaned).2
    rw [here] at barred
    exact absurd barred id
  | clockRead called here =>
    have passage : Passage d .start (.revokingUser ((epoch now : ℤ) - 1)) := by
      constructor <;> simp [AuthStage.Past, AuthStage.Barred]
    have later := sound.passage here grows rfl passage
    exact ⟨later.payload, later.cookie, later.claim, later.unminted, later.barred⟩
  | cookieVerified called here =>
    refine sound.passage here grows rfl ?_
    exact passage_verifyCookie _

theorem AuthMove.other_minted (move : AuthMove g t now d p answer d' p') {u : ℕ} (other : u ≠ t) :
    d'.tokens (.minted u) = d.tokens (.minted u) := by
  obtain ⟨-, -, rest⟩ := move.writes
  rcases rest with ⟨tokens, -⟩ | ⟨j, -, rfl⟩ | ⟨j, -, -, -, rfl⟩
  · rw [tokens]
  · rfl
  · exact update_of_ne (fun same => other (Jti.minted.inj same)) ..

theorem Recorded.tick {w : SessionWorld} (recorded : Recorded w) (onward : w.db.clock ≤ now) :
    Recorded ⟨{ w.db with clock := now }, w.proc⟩ where
  stored := ⟨fun j x found => ⟨(recorded.stored.issued j x found).1.trans onward, (recorded.stored.issued j x found).2⟩,
    recorded.stored.covered, recorded.stored.known, recorded.stored.unclaimed⟩
  sound t := ⟨(recorded.sound t).payload, (recorded.sound t).cookie, (recorded.sound t).claim,
    (recorded.sound t).unminted, (recorded.sound t).barred⟩

theorem Recorded.step {w next : SessionWorld} {e : ℕ × AuthAction} (recorded : Recorded w)
    (stepped : authStep g w e = some next) : Recorded next := by
  obtain ⟨d, p, onward, move, rfl⟩ := authStep_moves stepped
  obtain ⟨stored, sound⟩ := recorded.tick onward
  refine ⟨move.stored stored (sound e.1) rfl, ?_⟩
  apply (forall_update_iff w.proc (p := fun t q => Sound d t q)).mpr
  exact ⟨move.sound (sound e.1), fun t other => (sound t).grow (move.grows (sound e.1)) (move.other_minted other)⟩

end Recorded

theorem recorded_sessionWorld {now : ℕ} {token : RefreshToken} (calls : ℕ → AuthCall)
    (issued : seconds token.iat ≤ now) (life : token.exp ≤ token.iat + REFRESH_TOKEN_REVOCATION_TTL_SECONDS) :
    Recorded (sessionWorld now token calls) := by
  constructor
  · refine ⟨fun j x found => ?_, fun j x entry _ revoked => ?_, fun j revoked => absurd rfl revoked, fun j _ => rfl⟩
    · simp only [sessionWorld] at found
      split_ifs at found
      cases found
      exact ⟨issued, life⟩
    · cases revoked
  · intro t
    refine ⟨fun _ _ past => absurd past id, fun _ same => AuthStage.noConfusion same,
      fun _ _ same => AuthStage.noConfusion same, fun _ => ?_, fun orphaned => absurd orphaned Bool.false_ne_true⟩
    simp [sessionWorld]

theorem recorded_run {g : ℕ} {w w' : SessionWorld} {es : List (ℕ × AuthAction)} (recorded : Recorded w)
    (reach : run (authStep g) w es = some w') : Recorded w' := by
  refine run_invariant (C := fun _ _ => True) (fun _ _ _ recorded _ stepped => recorded.step stepped) recorded ?_ reach
  exact Meets.of_invariant (fun _ => True) (fun _ _ _ _ _ _ => trivial) (fun _ _ _ _ => trivial) trivial

/-- The call comes to its key while its token is alive, or while the key is. -/
def Prompt (d : SessionDb) (p : AuthProc) (j : Jti) (now : ℕ) : Prop :=
  (∀ x, p.payload = some x → now < seconds x.exp) ∨ (d.revokedRefresh j).Held now

theorem Prompt.held {d : SessionDb} {t now : ℕ} {p : AuthProc} {j : Jti} (prompt : Prompt d p j now)
    (stored : Stored d) (sound : Sound d t p) (called : p.call = .refresh j) (past : p.stage.Past) :
    (d.revokedRefresh j).Held now := by
  rcases prompt with alive | held
  · intro entry found
    obtain ⟨x, payload, known⟩ := sound.payload j called past
    exact (alive x payload).trans_le (stored.covered j x entry known found)
  · exact held

/-- No call claims the token it presents after the token and the key of an earlier claim have expired. -/
def ClaimsPrompt (w : SessionWorld) (e : ℕ × AuthAction) : Prop :=
  ∀ j, (w.proc e.1).call = .refresh j → (w.proc e.1).stage = .claiming → Prompt w.db (w.proc e.1) j e.2.now

def AuthProc.MintingOn (j : Jti) (p : AuthProc) : Prop := p.call = .refresh j ∧ p.stage = .minting

structure Chained (w : SessionWorld) : Prop where
  recorded : Recorded w
  alone : ∀ j, World.Exclusive (AuthProc.MintingOn j) w.proc
  unspent : ∀ t j, (w.proc t).MintingOn j → w.db.successors j = []
  chain : ∀ j, (w.db.successors j).length ≤ 1

section Chain
variable {g t now : ℕ} {d d' : SessionDb} {p p' : AuthProc} {answer : Answer}

theorem unclaimed_of_won {j : Jti} (held : (d.revokedRefresh j).Held now) (won : (claimJti now j d).2 = true) :
    d.revokedRefresh j = none := by
  simp only [claimJti, Slot.setnx_eq held] at won
  split_ifs at won with empty
  exact empty

theorem AuthMove.minting {j : Jti} (move : AuthMove g t now d p answer d' p') (mints : p'.MintingOn j) :
    p.call = .refresh j ∧ p.stage = .claiming ∧ (claimJti now j d).2 = true ∧ d'.successors = d.successors := by
  obtain ⟨called', minting⟩ := mints
  have called := move.call.symm.trans called'
  cases move with
  | claimed other here =>
    obtain rfl := refresh.inj (called.symm.trans other)
    dsimp only at minting
    split_ifs at minting with won
    exact ⟨called, here, won, rfl⟩
  | presented csrfOk other here =>
    unfold present at minting
    dsimp only at minting
    split_ifs at minting
    split at minting <;> cases minting
  | userSelected row other here =>
    rcases checkUser_cases row p.iat with passed | refused
    · rw [passed] at minting
      cases minting
    · rw [refused] at minting
      cases minting
  | limited | jtiChecked | graceChecked | sentinelChecked | rowChecked | cutoffChecked | contextResolved =>
    dsimp only at minting
    split_ifs at minting
  | sentinelSet | rowRevoked | userChecked | marked | minted => cases minting
  | clockRead other | userRevoked _ other | cookieVerified other | cookieRevoked _ other =>
    rw [called] at other
    cases other

theorem Chained.step {w next : SessionWorld} {e : ℕ × AuthAction} (chained : Chained w) (prompt : ClaimsPrompt w e)
    (stepped : authStep g w e = some next) : Chained next := by
  have recorded := chained.recorded.step stepped
  obtain ⟨d, p, onward, move, rfl⟩ := authStep_moves stepped
  have sound := chained.recorded.sound e.1
  -- a call that comes to mint has found the key never written
  have first : ∀ j, p.MintingOn j → w.db.revokedRefresh j = none ∧ d.successors = w.db.successors := by
    intro j mints
    obtain ⟨called, here, won, same⟩ := move.minting mints
    have held := (prompt j called here).held chained.recorded.stored sound called (by rw [here]; trivial)
    exact ⟨unclaimed_of_won held won, same⟩
  refine ⟨recorded, fun j => ?_, ?_, fun j => ?_⟩
  · refine (chained.alone j).update fun mints u other also => ?_
    exact (chained.recorded.sound u).claim j also.1 also.2 (first j mints).1
  · apply (forall_update_iff w.proc (p := fun _ q => ∀ j, q.MintingOn j → d.successors j = [])).mpr
    refine ⟨fun j mints => ?_, fun u other j mints => ?_⟩
    · rw [(first j mints).2]
      exact chained.recorded.stored.unclaimed j (first j mints).1
    · obtain ⟨-, -, rest⟩ := move.writes
      rcases rest with ⟨-, same, -⟩ | ⟨k, -, rfl⟩ | ⟨k, called, here, -, rfl⟩
      · rw [same]
        exact chained.unspent u j mints
      · exact chained.unspent u j mints
      · have distinct : j ≠ k := by
          rintro rfl
          exact chained.alone j u e.1 other mints ⟨called, here⟩
        simp only [mint, update_of_ne distinct]
        exact chained.unspent u j mints
  · obtain ⟨-, -, rest⟩ := move.writes
    rcases rest with ⟨-, same, -⟩ | ⟨k, -, rfl⟩ | ⟨k, called, here, -, rfl⟩
    · simp only [same]
      exact chained.chain j
    · exact chained.chain j
    · by_cases same : j = k
      · subst same
        simp only [mint, update_self, chained.unspent e.1 j ⟨called, here⟩, List.length_singleton, le_refl]
      · simp only [mint, update_of_ne same]
        exact chained.chain j

end Chain

/-- The request of the call passes the checks of its cookie and the rate limiter; the call reads the key of its
token while the token or the key is alive, and finds that no other call has written the marker again. -/
structure Heard (t : ℕ) (w : SessionWorld) (e : ℕ × AuthAction) : Prop where
  admitted : e.1 = t → (w.proc t).stage = .start → e.2.answer ≠ .request false
  allowed : e.1 = t → (w.proc t).stage = .limiting → e.2.answer ≠ .limiter false
  prompt : e.1 = t → ∀ j, (w.proc t).call = .refresh j → (w.proc t).stage = .checkingJti →
    Prompt w.db (w.proc t) j e.2.now
  unmarked : e.1 = t → ∀ j, (w.proc t).call = .refresh j → (w.proc t).stage = .checkingGrace →
    (w.db.rotationGrace j).get e.2.now = none

def AuthStage.Detecting : AuthStage → Prop
  | .limiting | .checkingJti | .checkingGrace | .revokingSentinel | .revokingRow | .returned .reuseDetected => True
  | _ => False

/-- A replay is on its way to be detected, and the family is revoked once it has been. -/
def Caught (d : SessionDb) (p : AuthProc) : Prop :=
  ∀ j, p.call = .refresh j → p.replayed = true → d.successors j ≠ [] ∧ p.stage.Detecting ∧
    (p.stage = .returned .reuseDetected → d.familyRevokedAt ≠ none)

section Replay
variable {g t now : ℕ} {d d' : SessionDb} {p p' : AuthProc} {answer : Answer}

theorem Caught.grow (caught : Caught d p) (grows : Grows d d') : Caught d' p := by
  intro j called replayed
  obtain ⟨spent, detecting, revoked⟩ := caught j called replayed
  exact ⟨grows.successors j spent, detecting, fun here => grows.family (revoked here)⟩

theorem isReplay_spent {j : Jti} (replay : isReplay d now j = true) :
    (∃ x, verifyToken d now j = some x) ∧ d.successors j ≠ [] := by
  simp only [isReplay, Bool.and_eq_true, Bool.not_eq_true', List.isEmpty_eq_false_iff] at replay
  exact ⟨isSome_iff_exists.mp replay.1.1, replay.1.2⟩

theorem caught_present {j : Jti} (called : p.call = .refresh j) {csrfOk : Bool} (admitted : csrfOk = true) :
    Caught d (present now j csrfOk d p) := by
  intro k other replayed
  subst admitted
  unfold present at replayed other ⊢
  simp only [if_true] at replayed other ⊢
  cases verified : verifyToken d now j with
  | none =>
    simp only [verified] at replayed
    obtain ⟨⟨x, found⟩, -⟩ := isReplay_spent replayed
    rw [verified] at found
    cases found
  | some payload =>
    simp only [verified] at replayed other ⊢
    obtain rfl := refresh.inj (called.symm.trans other)
    exact ⟨(isReplay_spent replayed).2, trivial, fun here => AuthStage.noConfusion here⟩

theorem AuthMove.caught (move : AuthMove g t now d p answer d' p') (stored : Stored d) (sound : Sound d t p)
    (caught : Caught d p) (admitted : p.stage = .start → answer ≠ .request false)
    (allowed : p.stage = .limiting → answer ≠ .limiter false)
    (prompt : ∀ j, p.call = .refresh j → p.stage = .checkingJti → Prompt d p j now)
    (unmarked : ∀ j, p.call = .refresh j → p.stage = .checkingGrace → (d.rotationGrace j).get now = none) :
    Caught d' p' := by
  have undetected : ∀ {s : AuthStage}, p.stage = s → ¬s.Detecting → ∀ j, p.call = .refresh j → p.replayed ≠ true :=
    fun here rest j called replayed => rest (here ▸ (caught j called replayed).2.1)
  cases move with
  | presented csrfOk called here =>
    refine caught_present called ?_
    cases csrfOk with
    | true => rfl
    | false => exact absurd rfl (admitted here)
  | limited permitted called here =>
    intro j other replayed
    refine ⟨(caught j other replayed).1, ?_, fun same => ?_⟩
    · cases permitted with
      | true => trivial
      | false => exact absurd rfl (allowed here)
    · dsimp only at same
      split_ifs at same
      cases same
  | jtiChecked called here =>
    intro j other replayed
    obtain rfl := refresh.inj (called.symm.trans other)
    have spent := (caught _ called replayed).1
    have held := (prompt _ called here).held stored sound called (by rw [here]; trivial)
    have revoked : d.revokedRefresh _ ≠ none := fun empty => spent (stored.unclaimed _ empty)
    obtain ⟨entry, found⟩ := ne_none_iff_exists'.mp revoked
    rw [if_pos (by rw [Slot.get_of_held held found]; rfl)]
    exact ⟨spent, trivial, fun same => AuthStage.noConfusion same⟩
  | graceChecked called here =>
    intro j other replayed
    obtain rfl := refresh.inj (called.symm.trans other)
    rw [unmarked _ called here]
    exact ⟨(caught _ called replayed).1, by simp [AuthStage.Detecting], by simp⟩
  | sentinelSet called here =>
    intro j other replayed
    exact ⟨(caught j other replayed).1, trivial, fun same => AuthStage.noConfusion same⟩
  | rowRevoked called here =>
    intro j other replayed
    refine ⟨(caught j other replayed).1, trivial, fun _ => ?_⟩
    cases d.familyRevokedAt <;> exact some_ne_none _
  | sentinelChecked called here | rowChecked called here | userChecked called here | cutoffChecked _ called here
  | userSelected _ called here | contextResolved _ called here | marked called here | claimed called here
  | minted called here => exact fun j other replayed => absurd replayed (undetected here id j other)
  | clockRead called | userRevoked _ called | cookieVerified called | cookieRevoked _ called =>
    intro j other
    exact absurd (called.symm.trans other) AuthCall.noConfusion

theorem Caught.step {w next : SessionWorld} {e : ℕ × AuthAction} (recorded : Recorded w)
    (caught : Caught w.db (w.proc t)) (heard : Heard t w e) (stepped : authStep g w e = some next) :
    Caught next.db (next.proc t) := by
  obtain ⟨d, p, onward, move, rfl⟩ := authStep_moves stepped
  obtain ⟨stored, sound⟩ := recorded.tick onward
  by_cases own : e.1 = t
  · subst own
    simp only [update_self]
    exact move.caught stored (sound e.1) caught (heard.admitted rfl) (heard.allowed rfl) (heard.prompt rfl)
      (heard.unmarked rfl)
  · simp only [update_of_ne (Ne.symm own)]
    have same : Caught { w.db with clock := e.2.now } (w.proc t) := caught
    exact same.grow (move.grows (sound e.1))

end Replay

def AuthProc.Returned (p : AuthProc) : Prop := ∃ outcome, p.stage = .returned outcome

/-- A call that presents a token with a successor after its marker is gone mints nothing, and when it has returned
the family is revoked. -/
def Detected (t : ℕ) (w : SessionWorld) : Prop :=
  (w.proc t).replayed = true → w.db.tokens (.minted t) = none ∧ ((w.proc t).Returned → w.db.familyRevokedAt ≠ none)

theorem Detected.of_caught {t : ℕ} {w : SessionWorld} (recorded : Recorded w) (caught : Caught w.db (w.proc t))
    (refresh : ∃ j, (w.proc t).call = .refresh j) : Detected t w := by
  intro replayed
  obtain ⟨j, called⟩ := refresh
  obtain ⟨-, detecting, revoked⟩ := caught j called replayed
  refine ⟨(recorded.sound t).unminted fun here => ?_, fun ⟨outcome, here⟩ => revoked ?_⟩
  · rw [here] at detecting
    exact detecting
  · rw [here] at detecting ⊢
    cases outcome with
    | reuseDetected => rfl
    | _ => exact absurd detecting id

theorem call_run {g : ℕ} {w w' : SessionWorld} {es : List (ℕ × AuthAction)}
    (reach : run (authStep g) w es = some w') (t : ℕ) : (w'.proc t).call = (w.proc t).call := by
  induction es generalizing w with
  | nil =>
    cases reach
    rfl
  | cons e es ih =>
    obtain ⟨mid, first, rest⟩ := run_cons reach
    rw [ih rest]
    obtain ⟨d, p, -, move, rfl⟩ := authStep_moves first
    by_cases own : t = e.1
    · subst own
      simp only [update_self]
      exact move.call
    · simp only [update_of_ne own]

/-- For every run of the calls of a session: the tokens form a chain where every claim is prompt; a replay is
detected where its call is heard; and no call that starts after the family was revoked mints. -/
theorem refresh_rotation (g : ℕ) {now : ℕ} {token : RefreshToken} (issued : seconds token.iat ≤ now)
    (life : token.exp ≤ token.iat + REFRESH_TOKEN_REVOCATION_TTL_SECONDS) (calls : ℕ → AuthCall)
    {es : List (ℕ × AuthAction)} {w : SessionWorld}
    (reach : run (authStep g) (sessionWorld now token calls) es = some w) :
    (Meets (authStep g) ClaimsPrompt (sessionWorld now token calls) es → ∀ j, (w.db.successors j).length ≤ 1) ∧
      (∀ t j, calls t = .refresh j → Meets (authStep g) (Heard t) (sessionWorld now token calls) es → Detected t w) ∧
      (∀ t, (w.proc t).orphaned = true → w.db.tokens (.minted t) = none) := by
  have start := recorded_sessionWorld calls issued life
  have recorded := recorded_run start reach
  refine ⟨fun prompt => ?_, fun t j called heard => ?_, fun t orphaned => ?_⟩
  · have fresh : Chained (sessionWorld now token calls) :=
      ⟨start, fun j t u _ mints => absurd mints.2 AuthStage.noConfusion,
        fun t j mints => absurd mints.2 AuthStage.noConfusion, fun j => Nat.zero_le 1⟩
    exact (run_invariant (fun _ _ _ chained prompt stepped => chained.step prompt stepped) fresh prompt reach).chain
  · have fresh : Caught (sessionWorld now token calls).db ((sessionWorld now token calls).proc t) :=
      fun _ _ replayed => absurd replayed Bool.false_ne_true
    have keep : ∀ v e next, Recorded v ∧ Caught v.db (v.proc t) → Heard t v e → authStep g v e = some next →
        Recorded next ∧ Caught next.db (next.proc t) :=
      fun v e next both heard stepped => ⟨both.1.step stepped, Caught.step both.1 both.2 heard stepped⟩
    have caught := run_invariant keep ⟨start, fresh⟩ heard reach
    exact Detected.of_caught recorded caught.2 ⟨j, (call_run reach t).trans called⟩
  · refine (recorded.sound t).unminted fun here => ?_
    have barred := ((recorded.sound t).barred orphaned).2
    rw [here] at barred
    exact barred

/-- No token of the session expires before the given second. -/
structure Living (exp : ℕ) (w : SessionWorld) : Prop where
  tokens : ∀ j x, w.db.tokens j = some x → exp ≤ x.exp
  payload : ∀ t x, (w.proc t).payload = some x → exp ≤ x.exp
  next : exp ≤ epoch w.db.clock + REFRESH_TOKEN_REVOCATION_TTL_SECONDS

section Runs
variable {g t now : ℕ} {d d' : SessionDb} {p p' : AuthProc} {answer : Answer}

theorem AuthMove.payload (move : AuthMove g t now d p answer d' p') {x : RefreshToken} (found : p'.payload = some x) :
    p.payload = some x ∨ ∃ j, d.tokens j = some x := by
  cases move with
  | presented csrfOk called here =>
    unfold present at found
    dsimp only at found
    split_ifs at found
    · split at found
      case h_1 payload verified =>
        cases found
        exact .inr ⟨_, (filter_eq_some_iff.mp verified).1⟩
      case h_2 => exact .inl found
    · exact .inl found
  | _ => exact .inl found

theorem Living.step {exp : ℕ} {w next : SessionWorld} {e : ℕ × AuthAction} (living : Living exp w)
    (stepped : authStep g w e = some next) : Living exp next := by
  obtain ⟨d, p, onward, move, rfl⟩ := authStep_moves stepped
  obtain ⟨clock, -, rest⟩ := move.writes
  have later : epoch w.db.clock ≤ epoch e.2.now := Nat.div_le_div_right onward
  have ahead := living.next
  refine ⟨fun j x found => ?_, ?_, ?_⟩
  · rcases rest with ⟨tokens, -⟩ | ⟨k, -, rfl⟩ | ⟨k, -, -, -, rfl⟩
    · rw [tokens] at found
      exact living.tokens j x found
    · exact living.tokens j x found
    · by_cases same : j = .minted e.1
      · subst same
        simp only [mint, update_self] at found
        cases found
        dsimp only
        omega
      · simp only [mint, update_of_ne same] at found
        exact living.tokens j x found
  · apply (forall_update_iff w.proc (p := fun _ q => ∀ x, q.payload = some x → exp ≤ x.exp)).mpr
    refine ⟨fun x found => ?_, fun u _ => living.payload u⟩
    rcases move.payload found with old | ⟨j, new⟩
    · exact living.payload e.1 x old
    · exact living.tokens j x new
  · rw [clock]
    dsimp only
    omega

theorem claimsPrompt_of_alive {token : RefreshToken} (calls : ℕ → AuthCall) (issued : seconds token.iat ≤ now)
    (life : token.exp ≤ token.iat + REFRESH_TOKEN_REVOCATION_TTL_SECONDS) {es : List (ℕ × AuthAction)}
    (alive : ∀ e ∈ es, e.2.now < seconds token.exp) :
    Meets (authStep g) ClaimsPrompt (sessionWorld now token calls) es := by
  refine Meets.of_invariant (Living token.exp) (fun w e _ next living stepped => living.step stepped)
    (fun w e member living j _ _ => .inl fun x found => ?_) ⟨fun j x found => ?_, fun t x found => ?_, ?_⟩
  · exact (alive e member).trans_le (Nat.mul_le_mul_right 1000 (living.payload e.1 x found))
  · simp only [sessionWorld] at found
    split_ifs at found
    cases found
    exact Nat.le_refl _
  · cases found
  · have whole : token.iat ≤ epoch now := (Nat.le_div_iff_mul_le (by decide)).mpr issued
    simp only [sessionWorld]
    omega

theorem heard_others {w : SessionWorld} {es : List (ℕ × AuthAction)} (others : ∀ e ∈ es, e.1 ≠ t) :
    Meets (authStep g) (Heard t) w es := by
  refine Meets.of_invariant (fun _ => True) (fun _ _ _ _ _ _ => trivial) (fun w e member _ => ?_) trivial
  have other := others e member
  exact ⟨fun own => absurd own other, fun own => absurd own other, fun own => absurd own other,
    fun own => absurd own other⟩

end Runs

def command (t now : ℕ) : ℕ × AuthAction := (t, ⟨now, .command⟩)

def opening (t now : ℕ) : List (ℕ × AuthAction) := [(t, ⟨now, .request true⟩), (t, ⟨now, .limiter true⟩)]

/-- The checks of a call whose token is good, from that of the `jti` on. -/
def checks (t now : ℕ) : List (ℕ × AuthAction) :=
  [command t now, command t now, command t now, command t now, command t now,
    (t, ⟨now, .user (some ⟨true, none⟩)⟩), (t, ⟨now, .context true⟩)]

def exchange (t now : ℕ) : List (ℕ × AuthAction) := [command t now, command t now, command t now]

def weekToken : RefreshToken := ⟨0, 604800⟩

def allRefresh : ℕ → AuthCall := fun _ => .refresh .login

/-- The token of the login is exchanged, and presented again twenty seconds later. -/
def replay : List (ℕ × AuthAction) :=
  (opening 0 1000 ++ checks 0 1000 ++ exchange 0 1000) ++
    (opening 1 20000 ++ [command 1 20000, command 1 20000, command 1 20000, command 1 20000])

theorem refresh_rotation_replay :
    ∃ w, run (authStep 15) (sessionWorld 0 weekToken allRefresh) replay = some w ∧
      (∀ j, (w.db.successors j).length ≤ 1) ∧ Detected 1 w := by
  have ran : run (authStep 15) (sessionWorld 0 weekToken allRefresh) replay = some _ := rfl
  refine ⟨_, ran, ?_⟩
  have rotation := refresh_rotation 15 (by decide) (by decide) allRefresh ran
  refine ⟨rotation.1 (claimsPrompt_of_alive allRefresh (by decide) (by decide) (by decide)), ?_⟩
  refine rotation.2.1 1 .login rfl ((heard_others (by decide)).append fun mid reach => ?_)
  cases reach
  refine .cons ⟨fun _ _ => by decide, fun _ here => AuthStage.noConfusion here,
    fun _ _ _ here => AuthStage.noConfusion here, fun _ _ _ here => AuthStage.noConfusion here⟩ rfl ?_
  refine .cons ⟨fun _ here => AuthStage.noConfusion here, fun _ _ => by decide,
    fun _ _ _ here => AuthStage.noConfusion here, fun _ _ _ here => AuthStage.noConfusion here⟩ rfl ?_
  refine .cons ⟨fun _ here => AuthStage.noConfusion here, fun _ here => AuthStage.noConfusion here,
    fun _ _ _ _ => .inl fun x found => ?_, fun _ _ _ here => AuthStage.noConfusion here⟩ rfl ?_
  · have same : x = weekToken := (some.inj found).symm
    rw [same]
    decide
  refine .cons ⟨fun _ here => AuthStage.noConfusion here, fun _ here => AuthStage.noConfusion here,
    fun _ _ _ here => AuthStage.noConfusion here, fun _ j called _ => ?_⟩ rfl ?_
  · have same : j = .login := (refresh.inj called).symm
    rw [same]
    decide +kernel
  refine .cons ⟨fun _ here => AuthStage.noConfusion here, fun _ here => AuthStage.noConfusion here,
    fun _ _ _ here => AuthStage.noConfusion here, fun _ _ _ here => AuthStage.noConfusion here⟩ rfl ?_
  exact .cons ⟨fun _ here => AuthStage.noConfusion here, fun _ here => AuthStage.noConfusion here,
    fun _ _ _ here => AuthStage.noConfusion here, fun _ _ _ here => AuthStage.noConfusion here⟩ rfl trivial

/-- A replay that the rate limiter refuses, a replay whose marker a late racer has written again, and a call that
stands still while its token and the key of the first claim expire. -/
theorem rotation_escapes :
    (∃ w, run (authStep 15) (sessionWorld 0 weekToken allRefresh)
        (opening 0 1000 ++ checks 0 1000 ++ exchange 0 1000 ++
          [(1, ⟨20000, .request true⟩), (1, ⟨20000, .limiter false⟩)]) = some w ∧ ¬Detected 1 w) ∧
      (∃ w, run (authStep 15) (sessionWorld 0 weekToken allRefresh)
        (opening 2 1000 ++ checks 2 1000 ++ opening 0 1000 ++ checks 0 1000 ++ exchange 0 1000 ++ opening 1 20000 ++
          [command 1 20000, command 2 20001, command 1 20002]) = some w ∧ ¬Detected 1 w) ∧
      ∃ w, run (authStep 15) (sessionWorld 0 weekToken allRefresh)
        (opening 0 0 ++ checks 0 0 ++ exchange 0 0 ++ opening 1 604799999 ++ checks 1 604800000 ++ exchange 1 604800000)
        = some w ∧ ¬∀ j, (w.db.successors j).length ≤ 1 := by
  refine ⟨⟨_, rfl, fun detected => ?_⟩, ⟨_, rfl, fun detected => ?_⟩, ⟨_, rfl, fun chain => ?_⟩⟩
  · exact (detected rfl).2 ⟨_, rfl⟩ rfl
  · exact (detected rfl).2 ⟨_, rfl⟩ rfl
  · exact absurd (chain .login) (by decide)

end RemudaRmm.Auth
