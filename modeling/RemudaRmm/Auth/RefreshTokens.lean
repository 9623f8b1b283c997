import Mathlib.Data.Int.Notation
import RemudaRmm.Foundation.Expiry
import RemudaRmm.Foundation.ReadCommitted

/-! The session of one user: its family of refresh tokens, what revokes them (`tokenRevocation.ts`), and `POST /refresh`
and `POST /logout` (`login.ts`), one command of the store or one statement at a time. Times are in milliseconds, the
claims of a token in seconds. -/
namespace RemudaRmm.Auth
open Foundation Function

def ACCESS_TOKEN_REVOCATION_TTL_SECONDS : ℕ := 15 * 60

def REFRESH_TOKEN_REVOCATION_TTL_SECONDS : ℕ := 7 * 24 * 60 * 60

def USER_REVOCATION_TTL_SECONDS : ℕ := REFRESH_TOKEN_REVOCATION_TTL_SECONDS + ACCESS_TOKEN_REVOCATION_TTL_SECONDS

def REFRESH_FAMILY_REVOCATION_TTL_SECONDS : ℕ := USER_REVOCATION_TTL_SECONDS

/-- A refresh token is named by its `jti`: that of the login, or the one the given call has minted. -/
inductive Jti where
  | login
  | minted (t : ℕ)
  deriving DecidableEq

structure RefreshToken where
  (iat exp : ℕ)

/-- The tokens of the family, the tokens minted in exchange for each, the keys of the store, and the time at which
the row of the family was revoked. -/
structure SessionDb where
  clock : ℕ
  tokens : Jti → Option RefreshToken
  successors : Jti → List Jti
  revokedRefresh : Jti → Slot Unit
  rotationGrace : Jti → Slot Unit
  revokedFamily : Slot Unit
  familyRevokedAt : Option ℕ
  revokedAccess : Slot Unit
  revokedAfter : Slot ℤ

inductive RefreshOutcome where
  | csrf
  | limited
  | invalid
  | raced
  | reuseDetected
  | minted
  deriving DecidableEq

/-- A call of `/refresh` with a token in its cookie, or of `/logout` with or without one. -/
inductive AuthCall where
  | refresh (jti : Jti)
  | logout (cookie : Option Jti)

inductive AuthStage where
  | start
  | limiting
  | checkingJti
  | checkingGrace
  | revokingSentinel
  | revokingRow
  | checkingSentinel
  | checkingRow
  | checkingUser
  | checkingCutoff (blanket : Bool)
  | selectingUser
  | resolvingContext
  | marking
  | claiming
  | minting
  | returned (outcome : RefreshOutcome)
  | revokingUser (cutoff : ℤ)
  | verifyingCookie
  | revokingCookie (jti : Jti)
  | loggedOut (endedAt : ℕ)
  deriving DecidableEq

/-- A call: the token it has verified and the time at which it started, and two facts of that time, whether its
token had a successor and no grace marker, and whether the family had been revoked. -/
structure AuthProc where
  call : AuthCall
  stage : AuthStage
  payload : Option RefreshToken
  startedAt : Option ℕ
  (replayed orphaned : Bool)

/-- The row of the user: whether it is active, and when its password was last changed. -/
structure UserRow where
  active : Bool
  passwordChangedAt : Option ℕ
  deriving DecidableEq

/-- What a call is told from outside the session: whether the request passes the cookie checks, the verdict of the
rate limiter (which counts every session of the user), the row of the user and its memberships. -/
inductive Answer where
  | command
  | request (csrfOk : Bool)
  | limiter (allowed : Bool)
  | user (row : Option UserRow)
  | context (member : Bool)
  deriving DecidableEq

structure AuthAction where
  now : ℕ
  answer : Answer

def seconds (n : ℕ) : ℕ := n * 1000

/-- The whole seconds of a time, as the claims of a token have them. -/
def epoch (now : ℕ) : ℕ := now / 1000

def verifyToken (d : SessionDb) (now : ℕ) (jti : Jti) : Option RefreshToken :=
  (d.tokens jti).filter fun token => epoch now < token.exp

/-- The verdict of `isUserTokenRevoked` once it has read both keys. -/
def userTokenRevoked (blanket : Bool) (revokedAfter : Option ℤ) (iat : ℕ) : Bool :=
  match revokedAfter with
  | some cutoff => decide ((iat : ℤ) ≤ cutoff)
  | none => blanket

def isTokenIssuedBeforePasswordChange (iat : ℕ) (passwordChangedAt : Option ℕ) : Bool :=
  passwordChangedAt.any fun changedAt => iat < epoch changedAt

/-- A token that was exchanged before, and whose marker is gone. -/
def isReplay (d : SessionDb) (now : ℕ) (jti : Jti) : Bool :=
  (verifyToken d now jti).isSome && !(d.successors jti).isEmpty && ((d.rotationGrace jti).get now).isNone

def AuthProc.iat (p : AuthProc) : ℕ := (p.payload.map RefreshToken.iat).getD 0

section Acts
variable (graceSeconds t now : ℕ)

def present (jti : Jti) (csrfOk : Bool) (d : SessionDb) (p : AuthProc) : AuthProc :=
  let p := { p with
    startedAt := some now
    replayed := isReplay d now jti
    orphaned := d.familyRevokedAt.isSome }
  if csrfOk then
    match verifyToken d now jti with
    | some payload => { p with stage := .limiting, payload := some payload }
    | none => { p with stage := .returned .invalid }
  else { p with stage := .returned .csrf }

def checkUser (row : Option UserRow) (iat : ℕ) : AuthStage :=
  match row with
  | some user =>
    if user.active && !isTokenIssuedBeforePasswordChange iat user.passwordChangedAt then .resolvingContext
    else .returned .invalid
  | none => .returned .invalid

/-- The marker is written before the `jti` is claimed; a grace of zero writes none. -/
def markRotated (jti : Jti) (d : SessionDb) : SessionDb :=
  if graceSeconds = 0 then d
  else { d with rotationGrace := update d.rotationGrace jti (Slot.setex now (seconds graceSeconds) ()) }

/-- The claim of a `jti`: a write that fails where the key is there already. -/
def claimJti (jti : Jti) (d : SessionDb) : SessionDb × Bool :=
  let written := (d.revokedRefresh jti).setnx now (seconds REFRESH_TOKEN_REVOCATION_TTL_SECONDS) ()
  ({ d with revokedRefresh := update d.revokedRefresh jti written.1 }, written.2)

def mint (jti : Jti) (d : SessionDb) : SessionDb :=
  { d with
    tokens := update d.tokens (.minted t)
      (some ⟨epoch now, epoch now + REFRESH_TOKEN_REVOCATION_TTL_SECONDS⟩)
    successors := update d.successors jti (.minted t :: d.successors jti) }

def refreshAct (jti : Jti) (answer : Answer) (d : SessionDb) (p : AuthProc) : Option (SessionDb × AuthProc) :=
  match p.stage, answer with
  | .start, .request csrfOk => some (d, present now jti csrfOk d p)
  | .limiting, .limiter allowed => some (d, { p with stage := if allowed then .checkingJti else .returned .limited })
  | .checkingJti, .command =>
    some (d, { p with stage :=
      if ((d.revokedRefresh jti).get now).isSome then .checkingGrace else .checkingSentinel })
  | .checkingGrace, .command =>
    some (d, { p with stage :=
      if graceSeconds ≠ 0 ∧ ((d.rotationGrace jti).get now).isSome then .returned .raced else .revokingSentinel })
  | .revokingSentinel, .command =>
    some ({ d with revokedFamily := Slot.setex now (seconds REFRESH_FAMILY_REVOCATION_TTL_SECONDS) () },
      { p with stage := .revokingRow })
  | .revokingRow, .command =>
    some ({ d with familyRevokedAt := d.familyRevokedAt.or (some now) }, { p with stage := .returned .reuseDetected })
  | .checkingSentinel, .command =>
    some (d, { p with stage := if (d.revokedFamily.get now).isSome then .returned .invalid else .checkingRow })
  | .checkingRow, .command =>
    some (d, { p with stage := if d.familyRevokedAt.isSome then .returned .invalid else .checkingUser })
  | .checkingUser, .command => some (d, { p with stage := .checkingCutoff (d.revokedAccess.get now).isSome })
  | .checkingCutoff blanket, .command =>
    some (d, { p with stage :=
      if userTokenRevoked blanket (d.revokedAfter.get now) p.iat then .returned .invalid else .selectingUser })
  | .selectingUser, .user row => some (d, { p with stage := checkUser row p.iat })
  | .resolvingContext, .context member => some (d, { p with stage := if member then .marking else .returned .invalid })
  | .marking, .command => some (markRotated graceSeconds now jti d, { p with stage := .claiming })
  | .claiming, .command =>
    some ((claimJti now jti d).1, { p with stage := if (claimJti now jti d).2 then .minting else .returned .raced })
  | .minting, .command => some (mint t now jti d, { p with stage := .returned .minted })
  | _, _ => none

/-- A cookie that is missing or has expired leaves nothing to revoke. -/
def verifyCookie (cookie : Option Jti) (d : SessionDb) : AuthStage :=
  match cookie with
  | some jti => if (verifyToken d now jti).isSome then .revokingCookie jti else .loggedOut now
  | none => .loggedOut now

/-- The cutoff is one second before the clock, so that a login in the same second is valid. -/
def logoutAct (cookie : Option Jti) (answer : Answer) (d : SessionDb) (p : AuthProc) :
    Option (SessionDb × AuthProc) :=
  match p.stage, answer with
  | .start, .command => some (d, { p with stage := .revokingUser ((epoch now : ℤ) - 1), startedAt := some now })
  | .revokingUser cutoff, .command =>
    some ({ d with
        revokedAccess := Slot.setex now (seconds ACCESS_TOKEN_REVOCATION_TTL_SECONDS) ()
        revokedAfter := Slot.setex now (seconds USER_REVOCATION_TTL_SECONDS) cutoff },
      { p with stage := .verifyingCookie })
  | .verifyingCookie, .command => some (d, { p with stage := verifyCookie now cookie d })
  | .revokingCookie jti, .command => some ((claimJti now jti d).1, { p with stage := .loggedOut now })
  | _, _ => none

end Acts

def authAct (graceSeconds t : ℕ) (a : AuthAction) (d : SessionDb) (p : AuthProc) : Option (SessionDb × AuthProc) :=
  if d.clock ≤ a.now then
    match p.call with
    | .refresh jti => refreshAct graceSeconds t a.now jti a.answer { d with clock := a.now } p
    | .logout cookie => logoutAct a.now cookie a.answer { d with clock := a.now } p
  else none

abbrev SessionWorld := World ℕ SessionDb AuthProc

def authStep (graceSeconds : ℕ) : SessionWorld → ℕ × AuthAction → Option SessionWorld :=
  World.step (authAct graceSeconds)

/-- A session after its login: one token, nothing revoked, and calls that have not begun. -/
def sessionWorld (now : ℕ) (token : RefreshToken) (calls : ℕ → AuthCall) : SessionWorld where
  db := {
    clock := now
    tokens := fun jti => if jti = .login then some token else none
    successors := fun _ => []
    revokedRefresh := fun _ => none
    rotationGrace := fun _ => none
    revokedFamily := none
    familyRevokedAt := none
    revokedAccess := none
    revokedAfter := none }
  proc := fun t => ⟨calls t, .start, none, none, false, false⟩

end RemudaRmm.Auth
