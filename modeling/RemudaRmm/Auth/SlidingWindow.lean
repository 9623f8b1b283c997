import Mathlib.Data.List.Flatten
import Mathlib.Data.List.Induction
import Mathlib.Data.Rat.Floor
import RemudaRmm.Foundation.ScoredSet
import RemudaRmm.Foundation.Text

/-! The sliding-window limiter (`rate-limit.ts`), for the calls on one key. A call sends one transaction to Redis, which
counts the calls of the window in a sorted set: denied calls too. -/
namespace RemudaRmm.Auth
open Foundation

structure RateLimitResult where
  allowed : Bool
  (remaining resetAt : ℕ)

/-- What becomes of the transaction of a call: there is no Redis, it is aborted, its reply is lost whether or not it was
applied, or the reply arrives. -/
inductive ExecOutcome where
  | unavailable
  | aborted
  | failed (applied : Bool)
  | replied
  deriving DecidableEq

def ExecOutcome.applied : ExecOutcome → Bool
  | .unavailable | .aborted => false
  | .failed applied => applied
  | .replied => true

/-- A call of `rateLimiter`: the clock reading, the cost unless it is not finite, the random part of each member name,
and the clock reading of `failClosed`. -/
structure LimiterCall where
  now : ℕ
  cost : Option ℚ
  random : ℕ → Text
  exec : ExecOutcome
  failedAt : ℕ

def safeCost (cost : Option ℚ) : ℕ :=
  match cost with
  | none => 1
  | some cost => (max 1 ⌊cost⌋).toNat

def zaddArgs (call : LimiterCall) : List (Text × ℕ) :=
  (List.range (safeCost call.cost)).map fun i =>
    (decimal call.now ++ ['-'] ++ decimal i ++ ['-'] ++ call.random i, call.now)

section Limiter
variable (limit windowSeconds : ℕ)

def windowFailClosed (failedAt : ℕ) : RateLimitResult := ⟨false, 0, failedAt + windowSeconds * 1000⟩

/-- The set that `zcard` and `zrange` of the transaction see. -/
def counted (set : ScoredSet Text) (call : LimiterCall) : ScoredSet Text :=
  let windowStart : ℤ := call.now - (windowSeconds * 1000 : ℕ)
  ((set.live call.now).removeUpTo windowStart).addAll (zaddArgs call)

def multi (set : ScoredSet Text) (call : LimiterCall) : ScoredSet Text :=
  (counted windowSeconds set call).expire call.now (windowSeconds * 1000)

def windowResult (set : ScoredSet Text) (call : LimiterCall) : RateLimitResult :=
  let count := (counted windowSeconds set call).card
  let oldestScore := (counted windowSeconds set call).oldest.getD call.now
  ⟨decide (count ≤ limit), limit - count, oldestScore + windowSeconds * 1000⟩

def rateLimiter (set : ScoredSet Text) (call : LimiterCall) : ScoredSet Text × RateLimitResult :=
  (if call.exec.applied then multi windowSeconds set call else set,
    if call.exec = .replied then windowResult limit windowSeconds set call
    else windowFailClosed windowSeconds call.failedAt)

/-- The set of the key, and the calls that were made with their results. -/
structure LimiterWorld where
  set : ScoredSet Text
  answers : List (LimiterCall × RateLimitResult)

def limiterStep (s : LimiterWorld) (call : LimiterCall) : LimiterWorld :=
  let (set, result) := rateLimiter limit windowSeconds s.set call
  ⟨set, s.answers ++ [(call, result)]⟩

def limiterRun (calls : List LimiterCall) : LimiterWorld :=
  calls.foldl (limiterStep limit windowSeconds) ⟨ScoredSet.empty, []⟩

end Limiter

/-- The call was made in the window that ends with the instant `t`. -/
def LimiterCall.inWindow (windowSeconds t : ℕ) (call : LimiterCall) : Bool :=
  decide (t < call.now + windowSeconds * 1000 ∧ call.now ≤ t)

def totalCost (calls : List LimiterCall) : ℕ := (calls.map fun call => safeCost call.cost).sum

/-- The calls that were allowed in the window that ends with `t`. -/
def LimiterWorld.allowedIn (s : LimiterWorld) (windowSeconds t : ℕ) : List LimiterCall :=
  (s.answers.filter fun a => a.2.allowed && a.1.inWindow windowSeconds t).map Prod.fst

/-- Clock readings do not decrease from call to call, and all members have different names. -/
structure Orderly (calls : List LimiterCall) : Prop where
  ordered : calls.Pairwise fun a b => a.now ≤ b.now
  distinct : ((calls.flatMap zaddArgs).map Prod.fst).Nodup

def logged (calls : List LimiterCall) : List (Text × ℕ) := (calls.filter (·.exec.applied)).flatMap zaddArgs

section Run
variable {limit windowSeconds t : ℕ} {calls : List LimiterCall} {call : LimiterCall}

theorem length_zaddArgs (call : LimiterCall) : (zaddArgs call).length = safeCost call.cost := by
  rw [zaddArgs, List.length_map, List.length_range]

theorem score_of_mem_zaddArgs {e : Text × ℕ} (member : e ∈ zaddArgs call) : e.2 = call.now := by
  obtain ⟨i, -, rfl⟩ := List.mem_map.mp member
  rfl

theorem length_flatMap_zaddArgs (calls : List LimiterCall) : (calls.flatMap zaddArgs).length = totalCost calls := by
  rw [List.length_flatMap, totalCost]
  exact congrArg List.sum (List.map_congr_left fun call _ => length_zaddArgs call)

theorem totalCost_append (first second : List LimiterCall) :
    totalCost (first ++ second) = totalCost first + totalCost second := by
  rw [totalCost, List.map_append, List.sum_append]
  rfl

theorem totalCost_le {part : List LimiterCall} (sub : part.Sublist calls) : totalCost part ≤ totalCost calls := by
  rw [← length_flatMap_zaddArgs, ← length_flatMap_zaddArgs]
  exact (sub.flatMap zaddArgs).length_le

theorem Orderly.of_append {later : List LimiterCall} (orderly : Orderly (calls ++ later)) : Orderly calls where
  ordered := (List.pairwise_append.mp orderly.ordered).1
  distinct := by
    have all := orderly.distinct
    rw [List.flatMap_append, List.map_append] at all
    exact (List.nodup_append.mp all).1

theorem Orderly.latest (orderly : Orderly (calls ++ [call])) : ∀ c ∈ calls, c.now ≤ call.now :=
  fun c member => (List.pairwise_append.mp orderly.ordered).2.2 c member call (List.mem_singleton.mpr rfl)

theorem logged_sublist (calls : List LimiterCall) : (logged calls).Sublist (calls.flatMap zaddArgs) :=
  List.filter_sublist.flatMap zaddArgs

theorem Orderly.fresh (orderly : Orderly (calls ++ [call])) :
    ((logged calls).map Prod.fst ++ (zaddArgs call).map Prod.fst).Nodup := by
  have all := orderly.distinct
  rw [List.flatMap_append, List.map_append, List.flatMap_singleton] at all
  apply List.Nodup.sublist _ all
  exact ((logged_sublist calls).map Prod.fst).append_right _

theorem logged_snoc (calls : List LimiterCall) (call : LimiterCall) :
    logged (calls ++ [call]) = logged calls ++ if call.exec.applied then zaddArgs call else [] := by
  rw [logged, List.filter_append, List.flatMap_append, ← logged, List.filter_singleton]
  cases call.exec.applied with
  | true => rw [cond_true, List.flatMap_singleton, if_pos rfl]
  | false => rw [cond_false, List.flatMap_nil, if_neg Bool.false_ne_true]

theorem limiterRun_snoc (calls : List LimiterCall) (call : LimiterCall) :
    limiterRun limit windowSeconds (calls ++ [call]) =
      limiterStep limit windowSeconds (limiterRun limit windowSeconds calls) call := List.foldl_concat ..

theorem tracks_limiterRun (limit windowSeconds : ℕ) {last : ℕ} (orderly : Orderly calls)
    (past : ∀ c ∈ calls, c.now ≤ last) :
    ScoredSet.Tracks (windowSeconds * 1000) last (limiterRun limit windowSeconds calls).set (logged calls) := by
  induction calls using List.reverseRecOn generalizing last with
  | nil => exact ScoredSet.tracks_empty last
  | append_singleton calls call ih =>
    have le : call.now ≤ last := past call (List.mem_append_right _ (List.mem_singleton.mpr rfl))
    have before := ih orderly.of_append orderly.latest
    rw [limiterRun_snoc, logged_snoc]
    simp only [limiterStep, rateLimiter]
    split_ifs with applied
    · exact (before.extend le_rfl orderly.fresh fun e member => score_of_mem_zaddArgs member).later le
    · rw [List.append_nil]
      exact before.later le

theorem recent_flatMap_zaddArgs (window now : ℕ) (calls : List LimiterCall) :
    ScoredSet.recent window now (calls.flatMap zaddArgs) =
      (calls.filter fun c => now < c.now + window).flatMap zaddArgs := by
  unfold ScoredSet.recent
  induction calls with
  | nil => rfl
  | cons call calls ih =>
    rw [List.flatMap_cons, List.filter_append, ih]
    rw [List.filter_cons]
    split_ifs with young
    · rw [List.flatMap_cons, List.filter_eq_self.mpr]
      intro e member
      rw [score_of_mem_zaddArgs member]
      exact young
    · rw [List.filter_eq_nil_iff.mpr, List.nil_append]
      intro e member
      rw [score_of_mem_zaddArgs member]
      exact young

theorem card_counted (limit windowSeconds : ℕ) (orderly : Orderly (calls ++ [call])) :
    (counted windowSeconds (limiterRun limit windowSeconds calls).set call).card =
      totalCost ((calls.filter (·.exec.applied)).filter fun c => call.now < c.now + windowSeconds * 1000) +
        safeCost call.cost := by
  have tracks := tracks_limiterRun limit windowSeconds orderly.of_append orderly.latest
  have entries := tracks.entries_extend le_rfl orderly.fresh
  have card : (counted windowSeconds (limiterRun limit windowSeconds calls).set call).card =
      (ScoredSet.recent (windowSeconds * 1000) call.now (logged calls) ++ zaddArgs call).length :=
    congrArg List.length entries
  rw [card, List.length_append, length_zaddArgs, logged, recent_flatMap_zaddArgs, length_flatMap_zaddArgs]

theorem replied_of_allowed {set : ScoredSet Text} (allowed : (rateLimiter limit windowSeconds set call).2.allowed) :
    call.exec = .replied ∧ (counted windowSeconds set call).card ≤ limit := by
  by_cases replied : call.exec = .replied
  · rw [rateLimiter, if_pos replied] at allowed
    exact ⟨replied, of_decide_eq_true allowed⟩
  · rw [rateLimiter, if_neg replied] at allowed
    cases allowed

theorem answers_run (limit windowSeconds : ℕ) (calls : List LimiterCall) :
    (limiterRun limit windowSeconds calls).answers.map Prod.fst = calls ∧
      ∀ a ∈ (limiterRun limit windowSeconds calls).answers, a.2.allowed = true → a.1.exec.applied = true := by
  induction calls using List.reverseRecOn with
  | nil => exact ⟨rfl, fun _ member => absurd member List.not_mem_nil⟩
  | append_singleton calls call ih =>
    rw [limiterRun_snoc]
    simp only [limiterStep]
    refine ⟨by rw [List.map_append, ih.1, List.map_singleton], fun a member allowed => ?_⟩
    rcases List.mem_append.mp member with old | new
    · exact ih.2 a old allowed
    · obtain rfl := List.mem_singleton.mp new
      rw [(replied_of_allowed allowed).1]
      rfl

theorem allowedIn_sublist (limit windowSeconds t : ℕ) (calls : List LimiterCall) :
    ((limiterRun limit windowSeconds calls).allowedIn windowSeconds t).Sublist
      ((calls.filter (·.exec.applied)).filter (·.inWindow windowSeconds t)) := by
  obtain ⟨same, applied⟩ := answers_run limit windowSeconds calls
  have sub : ((limiterRun limit windowSeconds calls).allowedIn windowSeconds t).Sublist calls := by
    nth_rewrite 2 [← same]
    exact List.filter_sublist.map Prod.fst
  have kept := (sub.filter (·.exec.applied)).filter (·.inWindow windowSeconds t)
  rw [List.filter_filter, List.filter_eq_self.mpr] at kept
  · exact kept
  · intro call member
    obtain ⟨a, among, rfl⟩ := List.mem_map.mp member
    obtain ⟨answered, test⟩ := List.mem_filter.mp among
    obtain ⟨allowed, inside⟩ := Bool.and_eq_true_iff.mp test
    rw [inside, applied a answered allowed]
    rfl

theorem allowedIn_snoc (limit windowSeconds t : ℕ) (calls : List LimiterCall) (call : LimiterCall) :
    (limiterRun limit windowSeconds (calls ++ [call])).allowedIn windowSeconds t =
      (limiterRun limit windowSeconds calls).allowedIn windowSeconds t ++
        if (rateLimiter limit windowSeconds (limiterRun limit windowSeconds calls).set call).2.allowed = true ∧
            call.inWindow windowSeconds t = true
        then [call] else [] := by
  rw [limiterRun_snoc]
  simp only [limiterStep, LimiterWorld.allowedIn, List.filter_append, List.map_append, List.filter_singleton]
  split_ifs with both
  · rw [both.1, both.2]
    rfl
  · rw [← Bool.and_eq_true_iff, Bool.not_eq_true] at both
    rw [both]
    rfl

theorem allowedIn_le (limit windowSeconds t : ℕ) (orderly : Orderly calls) :
    totalCost ((limiterRun limit windowSeconds calls).allowedIn windowSeconds t) ≤ limit := by
  induction calls using List.reverseRecOn with
  | nil => exact Nat.zero_le limit
  | append_singleton calls call ih =>
    rw [allowedIn_snoc]
    split_ifs with both
    · obtain ⟨-, room⟩ := replied_of_allowed both.1
      have inside := of_decide_eq_true both.2
      -- what was allowed in this window is still counted when this call is
      have counted : ((limiterRun limit windowSeconds calls).allowedIn windowSeconds t).Sublist
          ((calls.filter (·.exec.applied)).filter fun c => call.now < c.now + windowSeconds * 1000) := by
        apply (allowedIn_sublist limit windowSeconds t calls).trans
        apply List.monotone_filter_right
        intro c young
        exact decide_eq_true (inside.2.trans_lt (of_decide_eq_true young).1)
      rw [card_counted limit windowSeconds orderly] at room
      rw [totalCost_append]
      exact (Nat.add_le_add_right (totalCost_le counted) _).trans room
    · rw [List.append_nil]
      exact ih orderly.of_append

theorem allowed_of_room {earlier later : List LimiterCall} (orderly : Orderly (earlier ++ call :: later))
    (replied : call.exec = .replied)
    (room : totalCost (earlier.filter (·.inWindow windowSeconds call.now)) + safeCost call.cost ≤ limit) :
    (rateLimiter limit windowSeconds (limiterRun limit windowSeconds earlier).set call).2.allowed = true := by
  have upTo : Orderly (earlier ++ [call]) := by
    rw [← List.singleton_append, ← List.append_assoc] at orderly
    exact orderly.of_append
  have young : ((earlier.filter (·.exec.applied)).filter fun c => call.now < c.now + windowSeconds * 1000).Sublist
      (earlier.filter (·.inWindow windowSeconds call.now)) := by
    rw [List.filter_filter, List.filter_congr (q := fun c => c.inWindow windowSeconds call.now && c.exec.applied)]
    · apply List.monotone_filter_right
      intro c both
      exact (Bool.and_eq_true_iff.mp both).1
    · intro c member
      rw [LimiterCall.inWindow, decide_eq_decide.mpr (and_iff_left (upTo.latest c member)).symm]
  rw [rateLimiter, if_pos replied]
  apply decide_eq_true
  rw [card_counted limit windowSeconds upTo]
  exact (Nat.add_le_add_right (totalCost_le young) _).trans room

/-- The limiter never over-admits, and it admits what fits. -/
theorem rateLimiter_exact (limit windowSeconds : ℕ) (calls : List LimiterCall) (orderly : Orderly calls) :
    (∀ t, totalCost ((limiterRun limit windowSeconds calls).allowedIn windowSeconds t) ≤ limit) ∧
    ∀ earlier call later, calls = earlier ++ call :: later → call.exec = .replied →
      totalCost (earlier.filter (·.inWindow windowSeconds call.now)) + safeCost call.cost ≤ limit →
      (rateLimiter limit windowSeconds (limiterRun limit windowSeconds earlier).set call).2.allowed = true := by
  refine ⟨fun t => allowedIn_le limit windowSeconds t orderly, ?_⟩
  rintro earlier call later rfl replied room
  exact allowed_of_room orderly replied room

end Run

def sampleCall (now : ℕ) (cost : Option ℚ) (exec : ExecOutcome) : LimiterCall :=
  ⟨now, cost, fun i => decimal (now + i), exec, now⟩

/-- At a limit of 3 in a second: 2 are allowed, 2 more are denied and yet counted, a reply is lost; at 1100 the denied
ones still leave no room, at 1250 they do. -/
def sampleCalls : List LimiterCall :=
  [sampleCall 100 (some 2) .replied, sampleCall 200 (some (5 / 2)) .replied, sampleCall 300 none (.failed true),
    sampleCall 1100 (some (-4)) .replied, sampleCall 1250 (some 1) .replied]

theorem rateLimiter_exact_sample :
    (limiterRun 3 1 sampleCalls).answers.map (fun a => (a.2.allowed, a.2.remaining, a.2.resetAt)) =
      [(true, 1, 1100), (false, 0, 1100), (false, 0, 1300), (false, 0, 1200), (true, 0, 1300)] ∧
    (∀ t, totalCost ((limiterRun 3 1 sampleCalls).allowedIn 1 t) ≤ 3) ∧
    (rateLimiter 3 1 (limiterRun 3 1 []).set (sampleCall 100 (some 2) .replied)).2.allowed = true := by
  have orderly : Orderly sampleCalls := ⟨by decide +kernel, by decide +kernel⟩
  have both := rateLimiter_exact 3 1 sampleCalls orderly
  refine ⟨by decide +kernel, both.1, both.2 [] _ _ rfl rfl ?_⟩
  decide +kernel

end RemudaRmm.Auth
