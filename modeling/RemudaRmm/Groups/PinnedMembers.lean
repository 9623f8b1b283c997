import RemudaRmm.Groups.IncrementalMembership
import RemudaRmm.Groups.MembershipStatements

/-! The pins and the log of a group, whatever the order of the statements of the calls on it: they hold while each write
finds the membership that its call has read. -/
namespace RemudaRmm.Groups
open Foundation List Function Option
open Devices (Filter leaves)

section Log
variable {w w' : World} {i d : ℕ} {stage : Stage} {action : MembershipAction} {reason : MembershipReason}

theorem changesOf_append (log : List LogEntry) (entry : LogEntry) (d : ℕ) :
    changesOf (log ++ [entry]) d =
      changesOf log d ++ if entry.deviceId = d ∧ entry.reason ≠ .pinned then [entry.action] else [] := by
  rw [changesOf, filter_append, map_append, ← changesOf, filter_singleton]
  by_cases counted : entry.deviceId = d ∧ entry.reason ≠ .pinned
  · rw [if_pos counted, decide_eq_true counted.1, decide_eq_true counted.2]
    rfl
  · rw [if_neg counted]
    have off : (decide (entry.deviceId = d) && decide (entry.reason ≠ .pinned)) = false := by
      rw [← Bool.decide_and, decide_eq_false_iff_not]
      exact counted
    rw [off]
    rfl

theorem unlogged_cases (owes : stage.unlogged d = some (action, reason)) :
    (action = .added ∧ (reason = .filterMatch ∨ reason = .pinned)) ∨ (action = .removed ∧ reason ≠ .pinned) := by
  cases stage <;> simp only [Stage.unlogged, reduceCtorEq, ite_none_right_eq_some, Option.some.injEq,
    Prod.mk.injEq] at owes <;> obtain ⟨-, rfl, rfl⟩ := owes <;> decide

def Stage.Distinct : Stage → Prop
  | .selectMemberships _ _ matching => matching.Nodup
  | .insertMatching _ toAdd toRemove => toAdd.Nodup ∧ toRemove.Nodup
  | .logMatching _ unlogged toRemove => unlogged.Nodup ∧ toRemove.Nodup
  | .deleteUnmatched _ toRemove => toRemove.Nodup
  | .logUnmatched _ unlogged => unlogged.Nodup
  | _ => True

/-- The log with the entries that are still to come fits the memberships. -/
structure Logged (w : World) : Prop where
  distinct : ∀ i, (w.calls i).Distinct
  alone : ∀ i d, (w.calls i).unlogged d ≠ none → AllLogged w i d
  alternates : LogAlternates w
  next : ∀ i d action reason, (w.calls i).unlogged d = some (action, reason) → reason ≠ .pinned →
    (changesOf w.log d).getLast? ≠ some action
  present : ∀ i d, (w.calls i).unlogged d = some (.added, .filterMatch) → w.members d ≠ none
  pinned : ∀ i d, (w.calls i).unlogged d = some (.added, .pinned) → (w.members d).any (·.isPinned) = true
  absent : ∀ d, w.members d = none →
    (changesOf w.log d).getLast? ≠ some .added ∨ ∃ i reason, (w.calls i).unlogged d = some (.removed, reason)

/-- What a statement may make of a membership. -/
structure Touched (w w' : World) (i : ℕ) (stage : Stage) (d : ℕ) : Prop where
  free : AllLogged w i d ∨ (w'.members d = w.members d ∧ stage.unlogged d = none)
  added : stage.unlogged d = some (.added, .filterMatch) → w.members d = none ∧ w'.members d ≠ none
  pinned : stage.unlogged d = some (.added, .pinned) → (w'.members d).any (·.isPinned) = true
  removed : ∀ reason, stage.unlogged d = some (.removed, reason) → ¬PutBackByPin w d
  gone : w'.members d = none → w.members d = none ∨ ∃ reason, stage.unlogged d = some (.removed, reason)

theorem Touched.untouched (same : w'.members d = w.members d) (settled : stage.unlogged d = none) :
    Touched w w' i stage d where
  free := .inr ⟨same, settled⟩
  added owes := absurd (settled.symm.trans owes) (by simp)
  pinned owes := absurd (settled.symm.trans owes) (by simp)
  removed _ owes := absurd (settled.symm.trans owes) (by simp)
  gone absent := .inl (same.symm.trans absent)

theorem Touched.allLogged (touched : Touched w w' i stage d) (owes : stage.unlogged d ≠ none) : AllLogged w i d :=
  touched.free.resolve_right fun settled => owes settled.2

theorem Touched.next (touched : Touched w w' i stage d) (logged : Logged w) (idle : (w.calls i).unlogged d = none)
    (owes : stage.unlogged d = some (action, reason)) (own : reason ≠ .pinned) :
    (changesOf w.log d).getLast? ≠ some action := by
  rcases unlogged_cases owes with ⟨rfl, rfl | rfl⟩ | ⟨rfl, -⟩
  · rcases logged.absent d (touched.added owes).1 with last | ⟨j, why, removed⟩
    · exact last
    · have free := touched.allLogged (by simp [owes])
      by_cases same : j = i
      · exact absurd ((same ▸ idle).symm.trans removed) (by simp)
      · exact absurd ((free j same).symm.trans removed) (by simp)
  · exact absurd rfl own
  · exact touched.removed reason owes

theorem Logged.write (logged : Logged w) (calls : w'.calls = update w.calls i stage) (log : w'.log = w.log)
    (idle : ∀ d, (w.calls i).unlogged d = none) (distinct : stage.Distinct)
    (touched : ∀ d, Touched w w' i stage d) : Logged w' := by
  have self : w'.calls i = stage := by rw [calls, update_self]
  have other : ∀ j, j ≠ i → w'.calls j = w.calls j := fun j apart => by rw [calls, update_of_ne apart]
  have kept : ∀ j, j ≠ i → ∀ d, (w.calls j).unlogged d ≠ none → w'.members d = w.members d := by
    intro j apart d owes
    exact ((touched d).free.resolve_left fun free => owes (free j apart)).1
  constructor
  case distinct =>
    intro j
    by_cases same : j = i
    · rw [same, self]
      exact distinct
    · rw [other j same]
      exact logged.distinct j
  case alone =>
    intro j d owes k apart
    by_cases same : j = i
    · rw [same, self] at owes
      rw [other k (same ▸ apart)]
      exact (touched d).allLogged owes k (same ▸ apart)
    · rw [other j same] at owes
      by_cases mine : k = i
      · rw [mine, self]
        by_contra both
        exact owes ((touched d).allLogged both j same)
      · rw [other k mine]
        exact logged.alone j d owes k apart
  case alternates =>
    intro d
    rw [log]
    exact logged.alternates d
  case next =>
    intro j d action reason owes own
    rw [log]
    by_cases same : j = i
    · rw [same, self] at owes
      exact (touched d).next logged (idle d) owes own
    · rw [other j same] at owes
      exact logged.next j d action reason owes own
  case present =>
    intro j d owes
    by_cases same : j = i
    · rw [same, self] at owes
      exact ((touched d).added owes).2
    · rw [other j same] at owes
      rw [kept j same d (by simp [owes])]
      exact logged.present j d owes
  case pinned =>
    intro j d owes
    by_cases same : j = i
    · rw [same, self] at owes
      exact (touched d).pinned owes
    · rw [other j same] at owes
      rw [kept j same d (by simp [owes])]
      exact logged.pinned j d owes
  case absent =>
    intro d gone
    rw [log]
    rcases (touched d).gone gone with absent | ⟨reason, owes⟩
    · rcases logged.absent d absent with last | ⟨j, why, removed⟩
      · exact .inl last
      · have apart : j ≠ i := fun same => absurd ((idle d).symm.trans (same ▸ removed)) (by simp)
        exact .inr ⟨j, why, (other j apart).symm ▸ removed⟩
    · exact .inr ⟨i, reason, self.symm ▸ owes⟩

theorem Logged.log {orgId : ℕ} (logged : Logged w) (calls : w'.calls = update w.calls i stage)
    (members : w'.members = w.members) (log : w'.log = w.log ++ [⟨d, orgId, action, reason⟩])
    (owes : (w.calls i).unlogged d = some (action, reason)) (done : stage.unlogged d = none)
    (rest : ∀ x, x ≠ d → stage.unlogged x = (w.calls i).unlogged x) (distinct : stage.Distinct) : Logged w' := by
  have settled : ∀ j, (w'.calls j).unlogged d = none := by
    intro j
    rw [calls, update_apply]
    split
    · exact done
    · next apart => exact logged.alone i d (by simp [owes]) j apart
  have same : ∀ j x, x ≠ d → (w'.calls j).unlogged x = (w.calls j).unlogged x := by
    intro j x apart
    rw [calls, update_apply]
    split
    · next mine =>
      rw [mine]
      exact rest x apart
    · rfl
  have others : ∀ x, x ≠ d → changesOf w'.log x = changesOf w.log x := by
    intro x apart
    rw [log, changesOf_append, if_neg fun own => apart own.1.symm, append_nil]
  have owed : ∀ {j x e}, (w'.calls j).unlogged x = some e → x ≠ d := by
    intro j x e entry mine
    rw [mine, settled j] at entry
    cases entry
  have own : changesOf w'.log d = changesOf w.log d ++ if reason ≠ .pinned then [action] else [] := by
    rw [log, changesOf_append]
    simp only [true_and]
  constructor
  case distinct =>
    intro j
    rw [calls, update_apply]
    split
    · exact distinct
    · exact logged.distinct j
  case alone =>
    intro j x owing k apart
    obtain ⟨e, entry⟩ := ne_none_iff_exists'.mp owing
    have off := owed entry
    rw [same j x off] at owing
    rw [same k x off]
    exact logged.alone j x owing k apart
  case alternates =>
    intro x
    by_cases mine : x = d
    · rw [mine, own]
      split
      · next counted =>
        refine isChain_append.mpr ⟨logged.alternates d, isChain_singleton _, ?_⟩
        intro last isLast next isNext
        obtain rfl := mem_some_iff.mp isNext
        rintro rfl
        exact logged.next i d _ _ owes counted isLast
      · rw [append_nil]
        exact logged.alternates d
    · rw [others x mine]
      exact logged.alternates x
  case next =>
    intro j x action reason entry
    have off := owed entry
    rw [same j x off] at entry
    rw [others x off]
    exact logged.next j x action reason entry
  case present =>
    intro j x entry
    rw [same j x (owed entry)] at entry
    rw [members]
    exact logged.present j x entry
  case pinned =>
    intro j x entry
    rw [same j x (owed entry)] at entry
    rw [members]
    exact logged.pinned j x entry
  case absent =>
    intro x gone
    rw [members] at gone
    by_cases mine : x = d
    · rw [mine] at gone
      rw [mine, own]
      left
      rcases unlogged_cases owes with ⟨rfl, rfl | rfl⟩ | ⟨rfl, counted⟩
      · exact absurd gone (logged.present i d owes)
      · have pinned := logged.pinned i d owes
        rw [gone] at pinned
        cases pinned
      · rw [if_pos counted, getLast?_append]
        simp
    · rw [others x mine]
      rcases logged.absent x gone with last | ⟨j, why, removed⟩
      · exact .inl last
      · exact .inr ⟨j, why, (same j x mine).trans removed⟩

theorem Logged.proceed (logged : Logged w) (idle : ∀ d, (w.calls i).unlogged d = none)
    (settled : ∀ d, stage.unlogged d = none) (distinct : stage.Distinct) : Logged (w.proceed i stage) :=
  logged.write rfl rfl idle distinct fun d => .untouched rfl (settled d)

theorem Logged.finishPin {pinned : Bool} (logged : Logged w) (idle : ∀ d, (w.calls i).unlogged d = none) :
    Logged (w.finishPin i d pinned) :=
  logged.write rfl rfl idle trivial fun _ => .untouched rfl rfl

theorem Touched.inserted (owes : stage.unlogged d = some (.added, .filterMatch)) (free : AllLogged w i d)
    (fresh : w.members d = none) (there : w'.members d ≠ none) : Touched w w' i stage d where
  free := .inl free
  added _ := ⟨fresh, there⟩
  pinned other := absurd (owes.symm.trans other) (by simp)
  removed _ other := absurd (owes.symm.trans other) (by simp)
  gone absent := absurd absent there

theorem Touched.deleted (owes : stage.unlogged d = some (.removed, reason)) (free : AllLogged w i d)
    (dynamic : ¬PutBackByPin w d) : Touched w w' i stage d where
  free := .inl free
  added other := absurd (owes.symm.trans other) (by simp)
  pinned other := absurd (owes.symm.trans other) (by simp)
  removed _ _ := dynamic
  gone _ := .inr ⟨reason, owes⟩

theorem Touched.pinning (owes : stage.unlogged d = some (.added, .pinned)) (free : AllLogged w i d)
    (there : (w'.members d).any (·.isPinned) = true) : Touched w w' i stage d where
  free := .inl free
  added other := absurd (owes.symm.trans other) (by simp)
  pinned _ := there
  removed _ other := absurd (owes.symm.trans other) (by simp)
  gone absent := by
    rw [absent] at there
    cases there

theorem Touched.unpinning (settled : stage.unlogged d = none) (free : AllLogged w i d) (stays : w'.members d ≠ none) :
    Touched w w' i stage d where
  free := .inl free
  added owes := absurd (settled.symm.trans owes) (by simp)
  pinned owes := absurd (settled.symm.trans owes) (by simp)
  removed _ owes := absurd (settled.symm.trans owes) (by simp)
  gone absent := absurd absent stays

section Stages
variable {orgId : ℕ} {u r matching : List ℕ} {evaluation : Evaluation}

theorem deleteStage_unlogged : (deleteStage orgId r).unlogged d = none := by
  unfold deleteStage
  split <;> rfl

theorem insertStage_unlogged : (insertStage orgId u r).unlogged d = none := by
  unfold insertStage
  split
  · exact deleteStage_unlogged
  · rfl

theorem evaluatedStage_unlogged : (evaluatedStage w orgId matching evaluation).unlogged d = none := by
  cases evaluation <;> exact insertStage_unlogged

theorem logMatchingStage_unlogged :
    (logMatchingStage orgId u r).unlogged d = if d ∈ u then some (.added, .filterMatch) else none := by
  unfold logMatchingStage
  split
  · next empty =>
    rw [empty, if_neg not_mem_nil]
    exact deleteStage_unlogged
  · rfl

theorem logUnmatchedStage_unlogged :
    (logUnmatchedStage orgId u).unlogged d = if d ∈ u then some (.removed, .filterUnmatch) else none := by
  unfold logUnmatchedStage
  split
  · next empty =>
    rw [empty, if_neg not_mem_nil]
    rfl
  · rfl

theorem deleteStage_distinct (once : r.Nodup) : (deleteStage orgId r).Distinct := by
  unfold deleteStage
  split
  · trivial
  · exact once

theorem insertStage_distinct (add : u.Nodup) (once : r.Nodup) : (insertStage orgId u r).Distinct := by
  unfold insertStage
  split
  · exact deleteStage_distinct once
  · exact ⟨add, once⟩

theorem evaluatedStage_distinct (once : matching.Nodup) : (evaluatedStage w orgId matching evaluation).Distinct := by
  cases evaluation with
  | wholeGroup => exact insertStage_distinct (once.filter _) (w.once.filter _)
  | oneDevice d =>
    have one := nodup_singleton d
    exact insertStage_distinct ((one.filter _).filter _) (one.filter _)

theorem logMatchingStage_distinct (owed : u.Nodup) (once : r.Nodup) : (logMatchingStage orgId u r).Distinct := by
  unfold logMatchingStage
  split
  · exact deleteStage_distinct once
  · exact ⟨owed, once⟩

theorem logUnmatchedStage_distinct (owed : u.Nodup) : (logUnmatchedStage orgId u).Distinct := by
  unfold logUnmatchedStage
  split
  · trivial
  · exact owed

end Stages

theorem Careful.write {flag : Option Bool} (careful : Careful w (.statement i)) (now : w.calls i = stage)
    (member : (d, flag) ∈ stage.writes) : (w.members d).map (·.isPinned) = flag ∧ AllLogged w i d :=
  careful.1 (d, flag) (now ▸ member)

theorem Careful.delete (careful : Careful w (.statement i)) (now : w.calls i = stage) (member : d ∈ stage.deletes) :
    ¬PutBackByPin w d := careful.2 d (now ▸ member)

variable {members : Members}

theorem members_update_self {f : Membership → Membership} : members.update d f d = (members d).map f := if_pos rfl

theorem members_update_other {f : Membership → Membership} {x : ℕ} (apart : x ≠ d) :
    members.update d f x = members x := if_neg apart

theorem Logged.statement (logged : Logged w) (careful : Careful w (.statement i)) : Logged (statement w i) := by
  have distinct := logged.distinct i
  unfold Groups.statement
  cases now : w.calls i with
  | returned | matchFilter | logMatching | logUnmatched | matchUnpinned => exact logged
  | selectGroup evaluation =>
    have idle : ∀ d, (w.calls i).unlogged d = none := fun d => now ▸ rfl
    dsimp only
    split
    · exact logged.proceed idle (fun _ => rfl) trivial
    · split <;> exact logged.proceed idle (fun _ => rfl) trivial
  | ensureFields evaluation group filter =>
    exact logged.write rfl rfl (fun d => now ▸ rfl) trivial fun _ => .untouched rfl rfl
  | selectMemberships evaluation orgId matching =>
    rw [now] at distinct
    exact logged.proceed (fun d => now ▸ rfl) (fun _ => evaluatedStage_unlogged) (evaluatedStage_distinct distinct)
  | insertMatching orgId toAdd toRemove =>
    rw [now] at distinct
    refine logged.write rfl rfl (fun d => now ▸ rfl) distinct fun d => ?_
    by_cases member : d ∈ toAdd
    · obtain ⟨fresh, free⟩ := careful.write now (List.mem_map.mpr ⟨d, member, rfl⟩)
      rw [map_eq_none_iff] at fresh
      refine .inserted (if_pos member) free fresh ?_
      simp [Members.insert, member, fresh]
    · exact .untouched (if_neg member) (if_neg member)
  | deleteUnmatched orgId toRemove =>
    rw [now] at distinct
    refine logged.write rfl rfl (fun d => now ▸ rfl) distinct fun d => ?_
    by_cases member : d ∈ toRemove
    · have free := (careful.write now (List.mem_map.mpr ⟨d, member, rfl⟩)).2
      exact .deleted (if_pos member) free (careful.delete now member)
    · exact .untouched (if_neg member) (if_neg member)
  | selectMembership d pinned orgId =>
    have idle : ∀ d, (w.calls i).unlogged d = none := fun d => now ▸ rfl
    cases pinned with
    | true =>
      dsimp only
      split
      · exact logged.proceed idle (fun _ => rfl) trivial
      · split
        · exact logged.finishPin idle
        · exact logged.proceed idle (fun _ => rfl) trivial
    | false =>
      dsimp only
      split
      · exact logged.proceed idle (fun _ => rfl) trivial
      · exact logged.finishPin idle
  | updatePinned x orgId =>
    dsimp only
    obtain ⟨row, free⟩ := careful.write now mem_cons_self
    refine logged.write rfl rfl (fun d => now ▸ rfl) trivial fun d => ?_
    by_cases own : d = x
    · rw [own]
      refine .pinning (if_pos rfl) free ?_
      obtain ⟨membership, stored, -⟩ := map_eq_some_iff.mp row
      simp only [members_update_self, stored, map_some, any_some]
    · exact .untouched (members_update_other own) (if_neg own)
  | insertPinned x orgId =>
    dsimp only
    obtain ⟨row, free⟩ := careful.write now mem_cons_self
    refine logged.write rfl rfl (fun d => now ▸ rfl) trivial fun d => ?_
    by_cases own : d = x
    · rw [own]
      refine .pinning (if_pos rfl) free ?_
      rw [map_eq_none_iff] at row
      simp [Members.insert, row, pinnedMembership]
    · exact .untouched (if_neg (by simpa using own)) (if_neg own)
  | updateUnpinned x orgId =>
    dsimp only
    obtain ⟨row, free⟩ := careful.write now mem_cons_self
    refine logged.write rfl rfl (fun d => now ▸ rfl) trivial fun d => ?_
    by_cases own : d = x
    · rw [own]
      refine .unpinning rfl free ?_
      obtain ⟨membership, stored, -⟩ := map_eq_some_iff.mp row
      simp only [members_update_self, stored, map_some, ne_eq, reduceCtorEq, not_false_eq_true]
    · exact .untouched (members_update_other own) rfl
  | selectUnpinnedGroup d orgId =>
    have idle : ∀ d, (w.calls i).unlogged d = none := fun d => now ▸ rfl
    dsimp only
    split
    · exact logged.finishPin idle
    · exact logged.proceed idle (fun _ => rfl) trivial
  | deleteUnpinned x orgId =>
    obtain ⟨-, free⟩ := careful.write now mem_cons_self
    refine logged.write rfl rfl (fun d => now ▸ rfl) trivial fun d => ?_
    by_cases own : d = x
    · rw [own]
      exact .deleted (if_pos rfl) free (careful.delete now mem_cons_self)
    · exact .untouched (if_neg (by simpa using own)) (if_neg own)
  | logPinned x orgId | logUnpinned x orgId =>
    exact logged.log rfl rfl rfl (now ▸ if_pos rfl) rfl (fun d apart => now ▸ (if_neg apart).symm) trivial

theorem Logged.answer {selected : Option (List ℕ)} (logged : Logged w) : Logged (answer w i selected) := by
  unfold Groups.answer
  split
  · next now => exact logged.proceed (fun d => now ▸ rfl) (fun _ => rfl) (nodup_firstOfEach_id _)
  · next now => exact logged.proceed (fun d => now ▸ rfl) (fun _ => rfl) trivial
  · next now =>
    split
    · exact logged.finishPin fun d => now ▸ rfl
    · exact logged.proceed (fun d => now ▸ rfl) (fun _ => rfl) trivial
  · next now => exact logged.finishPin fun d => now ▸ rfl
  · exact logged

theorem Logged.logOne (logged : Logged w) : Logged (logOne w i d) := by
  have distinct := logged.distinct i
  unfold Groups.logOne
  split
  · next orgId unlogged toRemove now =>
    split
    · next member =>
      rw [now] at distinct
      refine logged.log rfl rfl rfl (now ▸ if_pos member) ?_ (fun x apart => ?_)
        (logMatchingStage_distinct (distinct.1.erase d) distinct.2)
      · rw [logMatchingStage_unlogged, if_neg distinct.1.not_mem_erase]
      · rw [logMatchingStage_unlogged, now]
        simp only [mem_erase_of_ne apart, Stage.unlogged]
    · exact logged
  · next orgId unlogged now =>
    split
    · next member =>
      rw [now] at distinct
      refine logged.log rfl rfl rfl (now ▸ if_pos member) ?_ (fun x apart => ?_)
        (logUnmatchedStage_distinct (List.Nodup.erase d distinct))
      · rw [logUnmatchedStage_unlogged, if_neg (List.Nodup.not_mem_erase distinct)]
      · rw [logUnmatchedStage_unlogged, now]
        simp only [mem_erase_of_ne apart, Stage.unlogged]
    · exact logged
  · exact logged

theorem Logged.step {e : Event} (logged : Logged w) (careful : Careful w e) : Logged (step w e) := by
  cases e with
  | evaluate i evaluation | pinDeviceToGroup i d pinned orgId =>
    unfold Groups.step start
    dsimp only
    split
    · next now => exact logged.proceed (fun d => now ▸ rfl) (fun _ => rfl) trivial
    · exact logged
  | statement i => exact logged.statement careful
  | answer i selected => exact logged.answer
  | log i d => exact logged.logOne
  | changeGroup group => exact ⟨logged.1, logged.2, logged.3, logged.4, logged.5, logged.6, logged.7⟩

theorem PinsHold.proceed (pins : PinsHold w) (calls : w'.calls = update w.calls i stage)
    (lastPin : w'.lastPin = w.lastPin) (unpins : ∀ d, (w.calls i).unpins = some d → stage.unpins = some d)
    (row : ∀ d, stage.unpins ≠ some d → (w.members d).any (·.isPinned) = true →
      (w'.members d).any (·.isPinned) = true) : PinsHold w' := by
  intro d last free
  rw [lastPin] at last
  have mine := free i
  rw [calls, update_self] at mine
  refine row d mine (pins d last fun j unpinning => ?_)
  by_cases same : j = i
  · exact mine (unpins d (same ▸ unpinning))
  · have others := free j
    rw [calls, update_of_ne same] at others
    exact others unpinning

theorem PinsHold.finish {pinned : Bool} (pins : PinsHold w) (calls : w'.calls = update w.calls i .returned)
    (lastPin : w'.lastPin = update w.lastPin d (some pinned)) (members : w'.members = w.members)
    (unpins : ∀ x, (w.calls i).unpins = some x → x = d)
    (row : pinned = true → (w.members d).any (·.isPinned) = true) : PinsHold w' := by
  intro x last free
  rw [lastPin, update_apply] at last
  rw [members]
  split at last
  · next own =>
    rw [own]
    exact row (some.inj last)
  · next apart =>
    refine pins x last fun j unpinning => ?_
    by_cases same : j = i
    · exact apart (unpins x (same ▸ unpinning))
    · have others := free j
      rw [calls, update_of_ne same] at others
      exact others unpinning

theorem pinned_insert {ids : List ℕ} {membership : Membership}
    (pinned : (members d).any (·.isPinned) = true) : (members.insert ids membership d).any (·.isPinned) = true := by
  cases stored : members d with
  | none =>
    rw [stored] at pinned
    cases pinned
  | some old =>
    rw [stored] at pinned
    unfold Members.insert
    split
    · rw [stored]
      exact pinned
    · rw [stored]
      exact pinned

theorem PinsHold.statement (pins : PinsHold w) (logged : Logged w) (careful : Careful w (.statement i)) :
    PinsHold (statement w i) := by
  unfold Groups.statement
  cases now : w.calls i with
  | returned | matchFilter | logMatching | logUnmatched | matchUnpinned => exact pins
  | selectGroup evaluation =>
    have none : ∀ d, (w.calls i).unpins = some d → Stage.unpins .returned = some d := fun d => now ▸ id
    dsimp only
    split
    · exact pins.proceed rfl rfl none fun _ _ => id
    · split <;> exact pins.proceed rfl rfl none fun _ _ => id
  | ensureFields evaluation group filter => exact pins.proceed rfl rfl (fun d => now ▸ id) fun _ _ => id
  | selectMemberships evaluation orgId matching =>
    refine pins.proceed rfl rfl (fun d unpins => ?_) fun _ _ => id
    rw [now] at unpins
    cases unpins
  | insertMatching orgId toAdd toRemove | insertPinned x orgId =>
    exact pins.proceed rfl rfl (fun d => now ▸ id) fun _ _ => pinned_insert
  | deleteUnmatched orgId toRemove =>
    refine pins.proceed rfl rfl (fun d => now ▸ id) fun d _ pinned => ?_
    have kept : d ∉ toRemove := by
      intro member
      obtain ⟨membership, stored, unpinned⟩ := map_eq_some_iff.mp
        (careful.write now (List.mem_map.mpr ⟨d, member, rfl⟩)).1
      rw [stored, any_some, unpinned] at pinned
      cases pinned
    simpa [Members.delete, kept] using pinned
  | selectMembership d pinned orgId =>
    cases pinned with
    | true =>
      dsimp only
      split
      · exact pins.proceed rfl rfl (fun d => now ▸ id) fun _ _ => id
      · next membership stored =>
        split
        · next pinned =>
          refine pins.finish rfl rfl rfl (fun x unpins => ?_) fun _ => ?_
          · rw [now] at unpins
            cases unpins
          · rw [stored]
            exact pinned
        · exact pins.proceed rfl rfl (fun d => now ▸ id) fun _ _ => id
    | false =>
      dsimp only
      split
      · exact pins.proceed rfl rfl (fun d => now ▸ id) fun _ _ => id
      · refine pins.finish rfl rfl rfl (fun x unpins => ?_) (fun impossible => absurd impossible (by decide))
        rw [now] at unpins
        exact (some.inj unpins).symm
  | updatePinned x orgId =>
    refine pins.proceed rfl rfl (fun d => now ▸ id) fun d _ pinned => ?_
    dsimp only [Members.update]
    split
    · obtain ⟨membership, stored, -⟩ := (Option.any_eq_true _ _).mp pinned
      rw [stored]
      rfl
    · exact pinned
  | updateUnpinned x orgId =>
    refine pins.proceed rfl rfl (fun d => now ▸ id) fun d apart pinned => ?_
    have other : d ≠ x := fun own => apart (own ▸ rfl)
    simp only [members_update_other other]
    exact pinned
  | selectUnpinnedGroup d orgId =>
    dsimp only
    split
    · refine pins.finish rfl rfl rfl (fun x unpins => ?_) (fun impossible => absurd impossible (by decide))
      rw [now] at unpins
      exact (some.inj unpins).symm
    · exact pins.proceed rfl rfl (fun d => now ▸ id) fun _ _ => id
  | deleteUnpinned x orgId =>
    refine pins.proceed rfl rfl (fun d => now ▸ id) fun d apart pinned => ?_
    have other : d ∉ [x] := fun own => apart (mem_singleton.mp own ▸ rfl)
    simpa only [Members.delete, other, if_false] using pinned
  | logPinned x orgId =>
    refine pins.finish rfl rfl rfl (fun y unpins => ?_) fun _ => logged.pinned i x (now ▸ if_pos rfl)
    rw [now] at unpins
    cases unpins
  | logUnpinned x orgId =>
    refine pins.finish rfl rfl rfl (fun y unpins => ?_) (fun impossible => absurd impossible (by decide))
    rw [now] at unpins
    exact (some.inj unpins).symm

theorem PinsHold.answer {selected : Option (List ℕ)} (pins : PinsHold w) : PinsHold (answer w i selected) := by
  unfold Groups.answer
  split
  · next now => exact pins.proceed rfl rfl (fun d => now ▸ id) fun _ _ => id
  · next now => exact pins.proceed rfl rfl (fun d => now ▸ id) fun _ _ => id
  · next d orgId filter ids now =>
    split
    · refine pins.finish rfl rfl rfl (fun x unpins => ?_) (fun impossible => absurd impossible (by decide))
      rw [now] at unpins
      exact (some.inj unpins).symm
    · exact pins.proceed rfl rfl (fun d => now ▸ id) fun _ _ => id
  · next d orgId filter now =>
    refine pins.finish rfl rfl rfl (fun x unpins => ?_) (fun impossible => absurd impossible (by decide))
    rw [now] at unpins
    exact (some.inj unpins).symm
  · exact pins

theorem PinsHold.logOne (pins : PinsHold w) : PinsHold (logOne w i d) := by
  unfold Groups.logOne
  split
  · next now =>
    split
    · refine pins.proceed rfl rfl (fun x unpins => ?_) fun _ _ => id
      rw [now] at unpins
      cases unpins
    · exact pins
  · next now =>
    split
    · refine pins.proceed rfl rfl (fun x unpins => ?_) fun _ _ => id
      rw [now] at unpins
      cases unpins
    · exact pins
  · exact pins

theorem PinsHold.step {e : Event} (pins : PinsHold w) (logged : Logged w) (careful : Careful w e) :
    PinsHold (step w e) := by
  cases e with
  | evaluate i evaluation | pinDeviceToGroup i d pinned orgId =>
    unfold Groups.step start
    dsimp only
    split
    · next now =>
      refine pins.proceed rfl rfl (fun x unpins => ?_) fun _ _ => id
      rw [now] at unpins
      cases unpins
    · exact pins
  | statement i => exact pins.statement logged careful
  | answer i selected => exact pins.answer
  | log i d => exact pins.logOne
  | changeGroup group => exact pins

theorem Quiet.logged (quiet : Quiet w) : Logged w := by
  have idle : ∀ i d, (w.calls i).unlogged d = none := fun i d => (quiet.returned i).symm ▸ rfl
  exact {
    distinct := fun i => (quiet.returned i).symm ▸ trivial
    alone := fun i d owes => absurd (idle i d) owes
    alternates := quiet.alternates
    next := fun i d _ _ owes => absurd ((idle i d).symm.trans owes) (by simp)
    present := fun i d owes => absurd ((idle i d).symm.trans owes) (by simp)
    pinned := fun i d owes => absurd ((idle i d).symm.trans owes) (by simp)
    absent := fun d gone => .inl (quiet.absent d gone) }

theorem pins_and_log_throughout {start : World} {events : List Event} (quiet : Quiet start)
    (careful : StepsMeet step Careful start events) :
    Throughout step (fun w => PinsHold w ∧ LogAlternates w) start events := by
  have kept : Throughout step (fun w => Logged w ∧ PinsHold w) start events := by
    refine throughout_of_invariant (fun w e both meets => ?_) ⟨quiet.logged, fun d last _ => quiet.pins d last⟩ careful
    exact ⟨both.1.step meets, both.2.step both.1 meets⟩
  intro pre post split
  obtain ⟨logged, pins⟩ := kept pre post split
  exact ⟨pins, logged.alternates⟩

end Log

/-- Members are the matching and the pinned devices while the changes of devices are reported and harmless; pins and the
log hold while the calls on the group are careful. -/
theorem dynamic_group_throughout {V : Type} (sem : FilterSemantics V) (filter : Filter) (groupId : ℕ) (group : Group)
    (now : ℤ) (estate evaluated : Estate V) (summary : MembershipUpdateSummary) (changes : List (DeviceChange V))
    (start : World) (events : List Event) :
    (Timeless filter → estate.groups.find groupId = some group → group.row.dynamicFilter = some filter →
      evaluateGroupMembership sem now estate groupId = some (evaluated, summary) →
      StepsMeet (changeDevice sem) (fun e c => Reports filter e c ∧ Harmless sem group.row.orgId e c) evaluated
        changes →
      Throughout (changeDevice sem) (MatchingAndPinned sem groupId group.row.orgId filter) evaluated changes) ∧
    (Quiet start → StepsMeet step Careful start events →
      Throughout step (fun w => PinsHold w ∧ LogAlternates w) start events) := by
  refine ⟨fun timeless found dynamic done meets => ?_, pins_and_log_throughout⟩
  exact matchingAndPinned_throughout timeless found dynamic done changes meets

/-- A condition holds for the value `true`. -/
def sampleSemantics : FilterSemantics Bool where
  builds c := decide (c.field ≠ [])
  holds _ _ v := if v then .yes else .no
  ofGroups _ := false
  timeless _ _ _ _ _ := rfl
  named _ empty := by simp [empty]

def sampleFilter : Filter := .group .and [.condition ⟨"hostname".toList, .equals, .string "a".toList⟩]

def sampleGroup : Group where
  row := ⟨3, .dynamic, some sampleFilter, none⟩
  members d := if d = 7 then some (dynamicMembership 3) else none
  log := [⟨7, 3, .added, .filterMatch⟩]

def sampleEstate : Estate Bool where
  devices := ⟨fun d => if d = 7 then some ⟨3, fun _ => true⟩ else none, [7], by decide, by simp⟩
  groups := ⟨fun g => if g = 1 then some sampleGroup else none, [1], by decide, by simp⟩

def sampleChange : DeviceChange Bool := ⟨7, ⟨3, fun _ => false⟩, ["hostname".toList], none, 0⟩

def sampleWorld : World where
  group := some sampleGroup.row
  deviceIds := [7]
  once := by decide
  members := sampleGroup.members
  log := sampleGroup.log
  calls _ := .returned
  lastPin _ := none

theorem quiet_sampleWorld : Quiet sampleWorld where
  returned _ := rfl
  pins d last := by cases last
  alternates d := by
    by_cases own : 7 = d <;> simp [changesOf, sampleWorld, sampleGroup, own]
  absent d gone := by
    have other : 7 ≠ d := by
      rintro rfl
      cases gone
    simp [changesOf, sampleWorld, sampleGroup, other]

/-- An evaluation of the device reads its membership before a pin and deletes it afterwards. -/
def pinDuringEvaluation : List Event :=
  [.evaluate 0 (.oneDevice 7), .statement 0, .statement 0, .answer 0 (some []), .statement 0,
    .pinDeviceToGroup 1 7 true 3, .statement 1, .statement 1, .statement 1, .statement 0]

theorem pinned_member_deleted :
    Quiet sampleWorld ∧ ¬Throughout step (fun w => PinsHold w ∧ LogAlternates w) sampleWorld pinDuringEvaluation := by
  refine ⟨quiet_sampleWorld, fun throughout => ?_⟩
  have pinned := throughout.last.1 7 rfl fun i unpins => by
    rcases i with - | - | i <;> cases unpins
  cases pinned

theorem sampleEstate_evaluates : (evaluateGroupMembership sampleSemantics 0 sampleEstate 1).isSome = true := by
  decide

def evaluatedEstate : Estate Bool × MembershipUpdateSummary :=
  (evaluateGroupMembership sampleSemantics 0 sampleEstate 1).get sampleEstate_evaluates

def pinAlone : List Event := [.pinDeviceToGroup 0 7 true 3, .statement 0, .statement 0, .statement 0]

theorem careful_pinAlone : StepsMeet step Careful sampleWorld pinAlone := by
  refine .cons trivial (.cons ⟨?_, ?_⟩ (.cons ⟨?_, ?_⟩ (.cons ⟨?_, ?_⟩ .nil)))
  · exact fun write member => absurd member not_mem_nil
  · exact fun d member => absurd member not_mem_nil
  · intro write member
    obtain rfl := mem_singleton.mp member
    refine ⟨rfl, fun j apart => ?_⟩
    cases j with
    | zero => exact absurd rfl apart
    | succ j => rfl
  · exact fun d member => absurd member not_mem_nil
  · exact fun write member => absurd member not_mem_nil
  · exact fun d member => absurd member not_mem_nil

theorem renamed_and_pinned :
    Throughout (changeDevice sampleSemantics) (MatchingAndPinned sampleSemantics 1 3 sampleFilter) evaluatedEstate.1
      [sampleChange] ∧ Throughout step (fun w => PinsHold w ∧ LogAlternates w) sampleWorld pinAlone := by
  have both := dynamic_group_throughout sampleSemantics sampleFilter 1 sampleGroup 0 sampleEstate evaluatedEstate.1
    evaluatedEstate.2 [sampleChange] sampleWorld pinAlone
  have done := (some_get sampleEstate_evaluates).symm
  refine ⟨both.1 ?_ rfl rfl done (.cons ⟨?_, ?_⟩ .nil), both.2 quiet_sampleWorld careful_pinAlone⟩
  · intro c member
    obtain rfl := mem_singleton.mp member
    exact ⟨by simp [ClockRelative], by decide⟩
  · intro old known field member changed
    obtain rfl := mem_singleton.mp member
    exact mem_cons_self
  · refine ⟨fun old known => ?_, fun given called => ?_, fun g group filter known _ used _ => ?_⟩
    · cases known
      exact Iff.rfl
    · cases called
    · by_cases own : g = 1
      · rw [own] at known
        cases known
        cases used
        decide
      · have missing : sampleEstate.groups.find g = none := if_neg own
        have nothing : evaluatedEstate.1.groups.find g = none := (if_neg own).trans missing
        rw [nothing] at known
        cases known

end RemudaRmm.Groups
