import Mathlib.Data.List.Nodup
import Mathlib.Data.List.Perm.Subperm
import RemudaRmm.Endpoint.TunnelManager

/-! Runs of the tunnel manager: where each open connection is accounted for, one lemma for each step, and what follows
for runs whose steps are safe. -/
namespace RemudaRmm.Endpoint
open Foundation List Option
open Function (update update_of_ne update_self)

/-- Where an open connection is accounted for, and what the calls under way rely on. -/
structure TunnelSound (openId closeId : ℕ → Text) (s : TunnelManager) : Prop where
  ids : (s.slots.map Slot.id).Nodup
  named : ∀ slot ∈ s.slots, slot.id = openId slot.call
  reserved : ∀ slot ∈ s.slots, slot.published = false → (s.opens slot.call).Holding
  published : ∀ slot ∈ s.slots, slot.published = true →
    s.opens slot.call = .returned true ∧ (slot.call ∈ s.opened ∨ s.readers slot.call = .ended)
  held : ∀ c, (s.opens c).Holding → ⟨openId c, c, false⟩ ∈ s.slots
  begun : ∀ c, s.opens c ≠ .idle → c ∈ s.begun
  distinct : s.opened.Nodup
  live : ∀ c ∈ s.opened, s.readers c = .reading
  covered : ∀ c ∈ s.opened,
    s.opens c = .dialed ∨ ⟨openId c, c, true⟩ ∈ s.slots ∨ (s.opens c).Returned ∧ ∃ k, (k, c) ∈ s.pending
  taken : ∀ p ∈ s.pending, ∃ before, s.closes p.1 = .closing before (some p.2)
  count : s.slots.length + s.pending.length ≤ s.maxSessions
  called : ∀ k before, s.closes k = .called before → ∀ c ∈ before, c ∈ s.begun ∧ openId c = closeId k
  closing : ∀ k before session, s.closes k = .closing before session → ∀ c, c ∈ before ∨ session = some c →
    (s.opens c).Returned ∧ ⟨openId c, c, true⟩ ∉ s.slots ∧ (c ∈ s.opened → session = some c)
  closed : ∀ k before, s.closes k = .returned before → ∀ c ∈ before,
    (s.opens c).Returned ∧ ⟨openId c, c, true⟩ ∉ s.slots ∧ c ∉ s.opened
  stopped : s.stopped = true → s.slots = [] ∧ s.pending = [] ∧ s.opened = []

section Slots
variable {slots : List Slot} {slot other : Slot} {id : Text}

theorem mem_deleteSlot : slot ∈ deleteSlot slots id ↔ slot ∈ slots ∧ slot.id ≠ id := by
  rw [deleteSlot, mem_filter, decide_eq_true_eq]

theorem slot_unique (ids : (slots.map Slot.id).Nodup) (first : slot ∈ slots) (second : other ∈ slots)
    (same : slot.id = other.id) : slot = other := inj_on_of_nodup_map ids first second same

theorem length_deleteSlot (member : slot ∈ slots) : (deleteSlot slots slot.id).length + 1 ≤ slots.length := by
  apply length_filter_lt_length_iff_exists.mpr
  exact ⟨slot, member, by simp⟩

theorem ids_deleteSlot (ids : (slots.map Slot.id).Nodup) (id : Text) : ((deleteSlot slots id).map Slot.id).Nodup :=
  ids.sublist (filter_sublist.map _)

theorem length_deleteSlot_le (slots : List Slot) (id : Text) : (deleteSlot slots id).length ≤ slots.length :=
  length_filter_le _ _

end Slots

section Steps
variable {openId closeId : ℕ → Text} {s next : TunnelManager} {event : TunnelEvent} {c k : ℕ} {id : Text}
variable {slot : Slot} {stage : OpenStage}

theorem lookup_id (found : lookup s id = some slot) : slot.id = id := by
  unfold lookup at found
  simpa only [decide_eq_true_eq] using find?_some found

theorem lookup_eq (ids : (s.slots.map Slot.id).Nodup) (member : slot ∈ s.slots) : lookup s slot.id = some slot := by
  cases found : lookup s slot.id with
  | none => exact absurd (find?_eq_none.mp found slot member) (by simp)
  | some other =>
    rw [slot_unique ids (mem_of_find?_eq_some found) member (lookup_id found)]

theorem writeTunnel_mem (written : writeTunnel s id = some c) :
    ∃ slot ∈ s.slots, slot.id = id ∧ slot.call = c ∧ slot.published = true := by
  unfold writeTunnel at written
  split at written
  next slot found =>
    split_ifs at written with published
    exact ⟨slot, mem_of_find?_eq_some found, lookup_id found, some.inj written, published⟩
  · cases written

theorem writeTunnel_eq (ids : (s.slots.map Slot.id).Nodup) (member : ⟨id, c, true⟩ ∈ s.slots) :
    writeTunnel s id = some c := by
  rw [writeTunnel, lookup_eq ids member]
  rfl

theorem TunnelSound.reachable_iff (sound : TunnelSound openId closeId s) :
    Reachable s c ↔ ⟨openId c, c, true⟩ ∈ s.slots := by
  constructor
  · rintro ⟨id, written⟩
    obtain ⟨⟨_, _, _⟩, member, rfl, rfl, rfl⟩ := writeTunnel_mem written
    rw [← sound.named _ member]
    exact member
  · intro member
    exact ⟨openId c, writeTunnel_eq sound.ids member⟩

theorem TunnelSound.bounded (sound : TunnelSound openId closeId s) : s.opened.length ≤ s.maxSessions := by
  have placed : s.opened ⊆ s.slots.map Slot.call ++ s.pending.map Prod.snd := by
    intro c member
    rcases sound.covered c member with dialed | published | ⟨-, k, taken⟩
    · have slot := sound.held c (by rw [dialed]; trivial)
      exact mem_append_left _ (List.mem_map_of_mem slot)
    · exact mem_append_left _ (List.mem_map_of_mem published)
    · exact mem_append_right _ (List.mem_map_of_mem taken)
  have fewer := (subperm_of_subset sound.distinct placed).length_le
  rw [length_append, length_map, length_map] at fewer
  exact fewer.trans sound.count

theorem TunnelSound.staysClosed (sound : TunnelSound openId closeId s) : StaysClosed s where
  closed := by
    intro k before returned _ c member
    obtain ⟨-, gone, shut⟩ := sound.closed k before returned c member
    exact ⟨shut, fun reachable => gone (sound.reachable_iff.mp reachable)⟩
  stopped := fun stopped _ => (sound.stopped stopped).2.2
  bounded := sound.bounded
  exact := by
    intro quiet
    have released : ∀ c, ¬(s.opens c).Holding := by
      intro c holding
      have returned := quiet.opens c (sound.begun c fun idle => by rw [idle] at holding; exact holding)
      cases stage : s.opens c with
      | idle | called | dialing | dialed | failed =>
        rw [stage] at returned
        exact returned
      | returned opened =>
        rw [stage] at holding
        exact holding
    have filled : ∀ slot ∈ s.slots, slot.published = true := by
      intro slot member
      cases published : slot.published with
      | true => rfl
      | false => exact absurd (sound.reserved slot member published) (released slot.call)
    refine ⟨filled, fun c => sound.reachable_iff.trans ⟨fun member => ?_, fun member => ?_⟩⟩
    · rcases (sound.published _ member rfl).2 with opened | ended
      · exact opened
      · exact absurd ended (quiet.readers c)
    · rcases sound.covered c member with dialed | published | ⟨-, k, taken⟩
      · exact absurd (by rw [dialed]; trivial) (released c)
      · exact published
      · rw [quiet.closes] at taken
        cases taken

theorem OpenStage.Returned.not_holding (returned : stage.Returned) : ¬stage.Holding := by
  cases stage with
  | idle | called | dialing | dialed | failed => exact returned.elim
  | returned opened => exact id

/-- A call that holds no slot and has not returned is nowhere to be found. -/
structure EarlyCall (s : TunnelManager) (c : ℕ) : Prop where
  waits : ¬(s.opens c).Holding
  absent : ¬(s.opens c).Returned

theorem TunnelSound.slot_other (sound : TunnelSound openId closeId s) (early : EarlyCall s c)
    (member : slot ∈ s.slots) : slot.call ≠ c := by
  rintro rfl
  cases published : slot.published with
  | false => exact early.waits (sound.reserved slot member published)
  | true =>
    have returned := (sound.published slot member published).1
    exact early.absent (by rw [returned]; trivial)

theorem TunnelSound.opened_other (sound : TunnelSound openId closeId s) (early : EarlyCall s c) : c ∉ s.opened := by
  intro member
  rcases sound.covered c member with dialed | slot | ⟨returned, -⟩
  · exact early.waits (by rw [dialed]; trivial)
  · exact sound.slot_other early slot rfl
  · exact early.absent returned

theorem TunnelSound.setOpen (sound : TunnelSound openId closeId s) {slots : List Slot}
    {begun : List ℕ} (unreturned : ¬(s.opens c).Returned)
    (others : ∀ slot : Slot, slot.call ≠ c → (slot ∈ slots ↔ slot ∈ s.slots)) (ids : (slots.map Slot.id).Nodup)
    (own : ∀ slot ∈ slots, slot.call = c → slot.id = openId c ∧ (slot.published = false → stage.Holding) ∧
      (slot.published = true → stage = .returned true ∧ (c ∈ s.opened ∨ s.readers c = .ended)))
    (held : stage.Holding → ⟨openId c, c, false⟩ ∈ slots)
    (covered : c ∈ s.opened → stage = .dialed ∨ ⟨openId c, c, true⟩ ∈ slots)
    (count : slots.length + s.pending.length ≤ s.maxSessions) (more : s.begun ⊆ begun) (listed : c ∈ begun)
    (stopped : s.stopped = true → slots = []) :
    TunnelSound openId closeId { s.setOpen c stage with slots := slots, begun := begun } := by
  have other : ∀ d, d ≠ c → (update s.opens c stage) d = s.opens d :=
    fun d different => update_of_ne different stage s.opens
  have apart : ∀ d, (s.opens d).Returned → d ≠ c := by
    rintro d returned rfl
    exact unreturned returned
  have kept : ∀ d, (s.opens d).Returned → (⟨openId d, d, true⟩ : Slot) ∉ s.slots →
      ((update s.opens c stage) d).Returned ∧ (⟨openId d, d, true⟩ : Slot) ∉ slots := by
    intro d returned gone
    rw [other d (apart d returned)]
    exact ⟨returned, fun slot => gone ((others ⟨openId d, d, true⟩ (apart d returned)).mp slot)⟩
  refine ⟨ids, ?_, ?_, ?_, ?_, ?_, sound.distinct, sound.live, ?_, sound.taken, count, ?_, ?_, ?_, ?_⟩
  · intro slot member
    by_cases same : slot.call = c
    · rw [same]
      exact (own slot member same).1
    · exact sound.named slot ((others slot same).mp member)
  · intro slot member reserved
    change ((update s.opens c stage) slot.call).Holding
    by_cases same : slot.call = c
    · rw [same, update_self]
      exact (own slot member same).2.1 reserved
    · rw [other _ same]
      exact sound.reserved slot ((others slot same).mp member) reserved
  · intro slot member published
    change (update s.opens c stage) slot.call = _ ∧ _
    by_cases same : slot.call = c
    · rw [same, update_self]
      exact (own slot member same).2.2 published
    · rw [other _ same]
      exact sound.published slot ((others slot same).mp member) published
  · intro d holding
    change ((update s.opens c stage) d).Holding at holding
    by_cases same : d = c
    · rw [same, update_self] at holding
      exact same ▸ held holding
    · rw [other d same] at holding
      exact (others ⟨openId d, d, false⟩ same).mpr (sound.held d holding)
  · intro d started
    rcases update_eq_or s.opens c stage d with ⟨same, -⟩ | ⟨-, before⟩
    · exact same ▸ listed
    · exact more (sound.begun d fun idle => started (before.trans idle))
  · intro d member
    change (update s.opens c stage) d = _ ∨ _ ∨ ((update s.opens c stage) d).Returned ∧ _
    by_cases same : d = c
    · subst same
      rw [update_self]
      exact (covered member).imp_right .inl
    · rw [other d same, others ⟨openId d, d, true⟩ same]
      exact sound.covered d member
  · intro k before called d member
    exact ⟨more (sound.called k before called d member).1, (sound.called k before called d member).2⟩
  · intro k before session closing d member
    obtain ⟨returned, gone, shut⟩ := sound.closing k before session closing d member
    exact ⟨(kept d returned gone).1, (kept d returned gone).2, shut⟩
  · intro k before closed d member
    obtain ⟨returned, gone, shut⟩ := sound.closed k before closed d member
    exact ⟨(kept d returned gone).1, (kept d returned gone).2, shut⟩
  · intro isStopped
    exact ⟨stopped isStopped, (sound.stopped isStopped).2⟩

theorem TunnelSound.waits_on (sound : TunnelSound openId closeId s) (early : EarlyCall s c) (waits : ¬stage.Holding)
    {begun : List ℕ} (more : s.begun ⊆ begun) (listed : c ∈ begun) :
    TunnelSound openId closeId { s.setOpen c stage with begun := begun } := by
  refine sound.setOpen early.absent (fun _ _ => Iff.rfl) sound.ids ?_ (absurd · waits) ?_ sound.count more listed ?_
  · exact fun slot member same => absurd same (sound.slot_other early member)
  · exact fun member => absurd member (sound.opened_other early)
  · exact fun stopped => (sound.stopped stopped).1

theorem TunnelSound.reserved_slot (sound : TunnelSound openId closeId s) (early : EarlyCall s c) (begun : c ∈ s.begun)
    (free : lookup s (openId c) = none) (running : s.stopped = false)
    (room : s.slots.length + s.pending.length < s.maxSessions) :
    TunnelSound openId closeId { s.setOpen c .dialing with slots := s.slots ++ [⟨openId c, c, false⟩] } := by
  have unnamed : ∀ slot ∈ s.slots, slot.id ≠ openId c := by
    intro slot member same
    rw [← same, lookup_eq sound.ids member] at free
    cases free
  have mine : ∀ slot : Slot, slot ∈ s.slots ++ [⟨openId c, c, false⟩] ↔ slot ∈ s.slots ∨ slot = ⟨openId c, c, false⟩ :=
    fun slot => by rw [mem_append, mem_singleton]
  refine sound.setOpen early.absent ?_ ?_ ?_ (fun _ => (mine _).mpr (.inr rfl)) ?_ ?_ (List.Subset.refl _) begun ?_
  · intro slot other
    rw [mine]
    exact or_iff_left fun same => other (same ▸ rfl)
  · rw [map_append, map_singleton]
    refine nodup_append.mpr ⟨sound.ids, nodup_singleton _, ?_⟩
    intro earlier before last only
    obtain ⟨slot, member, rfl⟩ := List.mem_map.mp before
    rw [mem_singleton.mp only]
    exact unnamed slot member
  · intro slot member same
    rcases (mine slot).mp member with before | rfl
    · exact absurd same (sound.slot_other early before)
    · exact ⟨rfl, fun _ => trivial, by simp⟩
  · exact fun member => absurd member (sound.opened_other early)
  · rw [length_append, length_singleton]
    omega
  · intro stopped
    exact absurd (running.symm.trans stopped) Bool.false_ne_true

theorem reserveSlot_sound (sound : TunnelSound openId closeId s) (called : s.opens c = .called)
    (safe : SafeTunnelEvent openId closeId s (.reserve c)) : TunnelSound openId closeId (reserveSlot openId s c) := by
  have early : EarlyCall s c := by
    constructor
    · rw [called]
      exact id
    · rw [called]
      exact id
  have begun : c ∈ s.begun := sound.begun c fun idle => by rw [called] at idle; cases idle
  have refused : TunnelSound openId closeId (s.setOpen c (.returned false)) :=
    sound.waits_on early id (List.Subset.refl _) begun
  unfold reserveSlot
  split_ifs with stopped full taken
  · exact refused
  · exact refused
  · exact refused
  · refine sound.reserved_slot early begun ?_ (Bool.eq_false_iff.mpr stopped) (safe.resolve_right full)
    rwa [Bool.not_eq_true, isSome_eq_false_iff, isNone_iff_eq_none] at taken

theorem TunnelSound.held_iff (sound : TunnelSound openId closeId s) (holds : (s.opens c).Holding)
    (member : slot ∈ s.slots) : slot.call = c ↔ slot = ⟨openId c, c, false⟩ := by
  constructor
  · rintro rfl
    exact slot_unique sound.ids member (sound.held _ holds) (sound.named slot member)
  · rintro rfl
    rfl

theorem TunnelSound.holds_on (sound : TunnelSound openId closeId s) (holds : (s.opens c).Holding) (stage : OpenStage)
    (holding : stage.Holding) (covered : c ∈ s.opened → stage = .dialed) :
    TunnelSound openId closeId (s.setOpen c stage) := by
  have begun : c ∈ s.begun := sound.begun c fun idle => by rw [idle] at holds; exact holds
  refine sound.setOpen (fun returned => returned.not_holding holds) (fun _ _ => Iff.rfl) sound.ids ?_
    (fun _ => sound.held c holds) (fun member => .inl (covered member)) sound.count (List.Subset.refl _) begun
    fun stopped => (sound.stopped stopped).1
  intro slot member same
  obtain rfl := (sound.held_iff holds member).mp same
  exact ⟨rfl, fun _ => holding, by simp⟩

theorem TunnelSound.connected (sound : TunnelSound openId closeId s) (dialed : s.opens c = .dialed)
    (fresh : c ∉ s.opened) : TunnelSound openId closeId { s.setReader c .reading with opened := c :: s.opened } := by
  have returned : ∀ d, (s.opens d).Returned → d ≠ c := by
    rintro d returned rfl
    rw [dialed] at returned
    exact returned
  have still : ∀ d, (s.opens d).Returned → d ∈ c :: s.opened → d ∈ s.opened :=
    fun d given member => (mem_cons.mp member).resolve_left (returned d given)
  refine ⟨sound.ids, sound.named, sound.reserved, ?_, sound.held, sound.begun, nodup_cons.mpr ⟨fresh, sound.distinct⟩,
    ?_, ?_, sound.taken, sound.count, sound.called, ?_, ?_, ?_⟩
  · intro slot member published
    change _ ∧ (slot.call ∈ c :: s.opened ∨ (update s.readers c .reading) slot.call = _)
    obtain ⟨stage, opened | ended⟩ := sound.published slot member published
    · exact ⟨stage, .inl (mem_cons_of_mem c opened)⟩
    · rw [update_of_ne (returned _ (by rw [stage]; trivial))]
      exact ⟨stage, .inr ended⟩
  · intro d member
    change (update s.readers c .reading) d = _
    by_cases same : d = c
    · rw [same, update_self]
    · rw [update_of_ne same]
      exact sound.live d ((mem_cons.mp member).resolve_left same)
  · intro d member
    rcases mem_cons.mp member with rfl | before
    · exact .inl dialed
    · exact sound.covered d before
  · intro k before session closing d member
    obtain ⟨given, gone, shut⟩ := sound.closing k before session closing d member
    exact ⟨given, gone, fun opened => shut (still d given opened)⟩
  · intro k before closed d member
    obtain ⟨given, gone, shut⟩ := sound.closed k before closed d member
    exact ⟨given, gone, fun opened => shut (still d given opened)⟩
  · intro stopped
    have slot := sound.held c (by rw [dialed]; trivial)
    rw [(sound.stopped stopped).1] at slot
    cases slot

theorem dial_sound (sound : TunnelSound openId closeId s) (dialing : s.opens c = .dialing) :
    TunnelSound openId closeId { (s.setOpen c .dialed).setReader c .reading with opened := c :: s.opened } ∧
      TunnelSound openId closeId (s.setOpen c .failed) := by
  have holds : (s.opens c).Holding := by
    rw [dialing]
    trivial
  have unopened : c ∉ s.opened := by
    intro member
    rcases sound.covered c member with dialed | slot | ⟨returned, -⟩
    · rw [dialing] at dialed
      cases dialed
    · have returned := (sound.published _ slot rfl).1
      rw [dialing] at returned
      cases returned
    · exact returned.not_holding holds
  constructor
  · have on := sound.holds_on holds .dialed trivial fun _ => rfl
    exact on.connected (update_self c _ s.opens) unopened
  · exact sound.holds_on holds _ trivial fun member => absurd member unopened

theorem TunnelSound.mem_deleteSlot_held (sound : TunnelSound openId closeId s) (holds : (s.opens c).Holding)
    (slot : Slot) : slot ∈ deleteSlot s.slots (openId c) ↔ slot ∈ s.slots ∧ slot.call ≠ c := by
  rw [mem_deleteSlot]
  refine and_congr_right fun member => not_congr ⟨fun same => ?_, fun same => ?_⟩
  · rw [slot_unique sound.ids member (sound.held c holds) same]
  · rw [sound.named slot member, same]

theorem TunnelSound.settle (sound : TunnelSound openId closeId s) (holds : (s.opens c).Holding) (opened : Bool)
    {filled : List Slot} (single : filled.length ≤ 1)
    (own : ∀ slot ∈ filled, slot = ⟨openId c, c, true⟩ ∧ opened = true ∧ (c ∈ s.opened ∨ s.readers c = .ended))
    (kept : c ∈ s.opened → ⟨openId c, c, true⟩ ∈ filled) : TunnelSound openId closeId
      { s.setOpen c (.returned opened) with slots := deleteSlot s.slots (openId c) ++ filled } := by
  have rest {slot : Slot} := sound.mem_deleteSlot_held holds slot
  have begun : c ∈ s.begun := sound.begun c fun idle => by rw [idle] at holds; exact holds
  refine sound.setOpen (fun returned => returned.not_holding holds) ?_ ?_ ?_ False.elim
    (fun member => .inr (mem_append_right _ (kept member))) ?_ (List.Subset.refl _) begun ?_
  · intro slot other
    rw [mem_append, rest, and_iff_left other]
    exact or_iff_left fun new => other (by rw [(own slot new).1])
  · rw [map_append]
    refine nodup_append.mpr ⟨ids_deleteSlot sound.ids _, ?_, ?_⟩
    · rcases Nat.le_one_iff_eq_zero_or_eq_one.mp single with none | one
      · rw [length_eq_zero_iff.mp none]
        exact nodup_nil
      · obtain ⟨slot, rfl⟩ := length_eq_one_iff.mp one
        exact nodup_singleton _
    · intro earlier before last new
      obtain ⟨slot, member, rfl⟩ := List.mem_map.mp before
      obtain ⟨mine, listed, rfl⟩ := List.mem_map.mp new
      rw [(own mine listed).1]
      exact (mem_deleteSlot.mp member).2
  · intro slot member same
    rcases mem_append.mp member with before | new
    · exact absurd same (rest.mp before).2
    · obtain ⟨rfl, rfl, there⟩ := own slot new
      exact ⟨rfl, (by simp), fun _ => ⟨rfl, there⟩⟩
  · have shorter := length_deleteSlot (sound.held c holds)
    have count := sound.count
    rw [length_append]
    dsimp only at shorter
    omega
  · intro stopped
    have slot := sound.held c holds
    rw [(sound.stopped stopped).1] at slot
    cases slot

theorem release_sound (sound : TunnelSound openId closeId s) (failed : s.opens c = .failed) : TunnelSound openId closeId
      { s.setOpen c (.returned false) with slots := deleteSlot s.slots (openId c) } := by
  have holds : (s.opens c).Holding := by
    rw [failed]
    trivial
  have none : ([] : List Slot).length ≤ 1 := Nat.zero_le 1
  have settled := sound.settle holds false none nofun fun member => by
    rcases sound.covered c member with dialed | slot | ⟨returned, -⟩
    · rw [failed] at dialed
      cases dialed
    · have returned := (sound.published _ slot rfl).1
      rw [failed] at returned
      cases returned
    · exact absurd holds returned.not_holding
  rwa [append_nil] at settled

theorem publish_sound (sound : TunnelSound openId closeId s) (dialed : s.opens c = .dialed)
    (linked : c ∈ s.opened ∨ s.readers c = .ended) : TunnelSound openId closeId
      { s.setOpen c (.returned true) with slots := deleteSlot s.slots (openId c) ++ [⟨openId c, c, true⟩] } := by
  apply sound.settle
  · rw [dialed]
    trivial
  · exact Nat.le_refl 1
  · intro slot member
    exact ⟨mem_singleton.mp member, rfl, linked⟩
  · intro _
    exact mem_singleton_self _

theorem readEnd_sound (sound : TunnelSound openId closeId s) :
    TunnelSound openId closeId { s.setReader c .ended with opened := s.opened.erase c } := by
  have fewer : ∀ d, d ∈ s.opened.erase c → d ∈ s.opened := fun d member => mem_of_mem_erase member
  refine ⟨sound.ids, sound.named, sound.reserved, ?_, sound.held, sound.begun, sound.distinct.erase c, ?_, ?_, sound.taken,
    sound.count, sound.called, ?_, ?_, ?_⟩
  · intro slot member published
    change _ ∧ (slot.call ∈ s.opened.erase c ∨ (update s.readers c .ended) slot.call = _)
    obtain ⟨returned, there⟩ := sound.published slot member published
    refine ⟨returned, ?_⟩
    by_cases same : slot.call = c
    · rw [same, update_self]
      exact .inr rfl
    · rw [update_of_ne same]
      exact there.imp_left (mem_erase_of_ne same).mpr
  · intro d member
    change (update s.readers c .ended) d = _
    rw [update_of_ne (sound.distinct.mem_erase_iff.mp member).1]
    exact sound.live d (fewer d member)
  · intro d member
    exact sound.covered d (fewer d member)
  · intro k before session closing d member
    obtain ⟨returned, gone, shut⟩ := sound.closing k before session closing d member
    exact ⟨returned, gone, fun opened => shut (fewer d opened)⟩
  · intro k before closed d member
    obtain ⟨returned, gone, shut⟩ := sound.closed k before closed d member
    exact ⟨returned, gone, fun opened => shut (fewer d opened)⟩
  · intro stopped
    obtain ⟨slots, pending, opened⟩ := sound.stopped stopped
    refine ⟨slots, pending, ?_⟩
    change s.opened.erase c = []
    rw [opened, erase_nil]

theorem TunnelSound.delete (sound : TunnelSound openId closeId s) (unheld : ∀ d, (s.opens d).Holding → openId d ≠ id)
    (covered : ∀ d ∈ s.opened, openId d = id → ⟨openId d, d, true⟩ ∉ s.slots) :
    TunnelSound openId closeId { s with slots := deleteSlot s.slots id } := by
  have before : ∀ slot, slot ∈ deleteSlot s.slots id → slot ∈ s.slots := fun slot member => (mem_deleteSlot.mp member).1
  refine ⟨ids_deleteSlot sound.ids id, ?_, ?_, ?_, ?_, sound.begun, sound.distinct, sound.live, ?_, sound.taken, ?_,
    sound.called, ?_, ?_, ?_⟩
  · exact fun slot member => sound.named slot (before slot member)
  · exact fun slot member => sound.reserved slot (before slot member)
  · exact fun slot member => sound.published slot (before slot member)
  · exact fun d holding => mem_deleteSlot.mpr ⟨sound.held d holding, unheld d holding⟩
  · intro d member
    rcases sound.covered d member with dialed | slot | taken
    · exact .inl dialed
    · exact .inr (.inl (mem_deleteSlot.mpr ⟨slot, fun same => covered d member same slot⟩))
    · exact .inr (.inr taken)
  · have count := sound.count
    have shorter := length_deleteSlot_le s.slots id
    change (deleteSlot s.slots id).length + s.pending.length ≤ s.maxSessions
    omega
  · intro k before session closing d member
    obtain ⟨returned, gone, shut⟩ := sound.closing k before session closing d member
    exact ⟨returned, fun slot => gone (mem_deleteSlot.mp slot).1, shut⟩
  · intro k before closed d member
    obtain ⟨returned, gone, shut⟩ := sound.closed k before closed d member
    exact ⟨returned, fun slot => gone (mem_deleteSlot.mp slot).1, shut⟩
  · intro stopped
    obtain ⟨slots, rest⟩ := sound.stopped stopped
    refine ⟨?_, rest⟩
    change deleteSlot s.slots id = []
    rw [slots]
    rfl

theorem callback_sound (sound : TunnelSound openId closeId s) (ended : s.readers c = .ended)
    (safe : SafeTunnelEvent openId closeId s (.callback c)) :
    TunnelSound openId closeId { s.setReader c .calledBack with slots := deleteSlot s.slots (openId c) } := by
  have closed : c ∉ s.opened := by
    intro member
    rw [sound.live c member] at ended
    cases ended
  have deleted : TunnelSound openId closeId { s with slots := deleteSlot s.slots (openId c) } := by
    apply sound.delete
    · intro d holding same
      cases (safe _ (sound.held d holding) same).2
    · intro d member same slot
      exact closed ((safe _ slot same).1 ▸ member)
  refine { deleted with published := ?_, live := ?_ }
  · intro slot member published
    obtain ⟨returned, there⟩ := deleted.published slot member published
    change _ ∧ (_ ∨ (update s.readers c .calledBack) slot.call = _)
    have different : slot.call ≠ c := by
      rintro rfl
      exact (mem_deleteSlot.mp member).2 (deleted.named slot member)
    rw [update_of_ne different]
    exact ⟨returned, there⟩
  · intro d member
    change (update s.readers c .calledBack) d = _
    have different : d ≠ c := fun same => closed (same ▸ member)
    rw [update_of_ne different]
    exact deleted.live d member

theorem closes_of_update {j : ℕ} {own stage : CloseStage} (found : update s.closes k own j = stage)
    (other : own ≠ stage) : s.closes j = stage := by
  rcases update_eq_or s.closes k own j with ⟨-, same⟩ | ⟨-, same⟩
  · exact absurd (same.symm.trans found) other
  · exact same.symm.trans found

theorem closeTunnel_sound (sound : TunnelSound openId closeId s) (idle : s.closes k = .idle) :
    TunnelSound openId closeId (s.setClose k (.called (s.begun.filter fun c => openId c = closeId k))) := by
  have other : ∀ j stage, s.closes j = stage → stage ≠ .idle → j ≠ k := by
    rintro j stage found busy rfl
    exact busy (found.symm.trans idle)
  refine { sound with taken := ?_, called := ?_, closing := ?_, closed := ?_ }
  · intro p member
    obtain ⟨before, closing⟩ := sound.taken p member
    refine ⟨before, ?_⟩
    change update s.closes k _ p.1 = _
    rw [update_of_ne (other _ _ closing nofun)]
    exact closing
  · intro j before called
    change update s.closes k _ j = _ at called
    by_cases same : j = k
    · subst same
      rw [update_self] at called
      cases called
      intro c member
      exact ⟨(mem_filter.mp member).1, of_decide_eq_true (mem_filter.mp member).2⟩
    · rw [update_of_ne same] at called
      exact sound.called j before called
  · intro j before session closing
    replace closing := closes_of_update closing nofun
    exact sound.closing j before session closing
  · intro j before closed
    replace closed := closes_of_update closed nofun
    exact sound.closed j before closed

theorem TunnelSound.taken_slot (sound : TunnelSound openId closeId s) (written : writeTunnel s id = some c) :
    ⟨openId c, c, true⟩ ∈ s.slots ∧ openId c = id := by
  obtain ⟨⟨_, _, _⟩, member, rfl, rfl, rfl⟩ := writeTunnel_mem written
  have name := sound.named _ member
  dsimp only at name
  subst name
  exact ⟨member, rfl⟩

theorem takeOut_sound (sound : TunnelSound openId closeId s) {before : List ℕ} (called : s.closes k = .called before)
    (safe : SafeTunnelEvent openId closeId s (.takeOut k)) :
    TunnelSound openId closeId (takeOutSlot closeId s k before) := by
  obtain ⟨returns, apart⟩ := safe
  have unheld : ∀ d, (s.opens d).Holding → openId d ≠ closeId k := by
    intro d holding same
    have begun := sound.begun d fun idle => by rw [idle] at holding; exact holding
    exact (returns d begun same).not_holding holding
  have other : ∀ j stage, s.closes j = stage → stage ≠ .called before → j ≠ k := by
    rintro j stage found different rfl
    exact different (found.symm.trans called)
  have past : ∀ slot, slot ∈ deleteSlot s.slots (closeId k) → slot ∈ s.slots :=
    fun slot member => (mem_deleteSlot.mp member).1
  have found : ∀ d, d ∈ s.opened → openId d = closeId k → (s.opens d).Returned →
      writeTunnel s (closeId k) = some d := by
    intro d member same returned
    rcases sound.covered d member with dialed | slot | ⟨-, j, taken⟩
    · rw [dialed] at returned
      exact returned.elim
    · rw [same] at slot
      exact writeTunnel_eq sound.ids slot
    · exact absurd same (apart _ taken)
  unfold takeOutSlot
  refine ⟨ids_deleteSlot sound.ids _, ?_, ?_, ?_, ?_, sound.begun, sound.distinct, sound.live, ?_, ?_, ?_, ?_, ?_, ?_, ?_⟩
  · exact fun slot member => sound.named slot (past slot member)
  · exact fun slot member => sound.reserved slot (past slot member)
  · exact fun slot member => sound.published slot (past slot member)
  · exact fun d holding => mem_deleteSlot.mpr ⟨sound.held d holding, unheld d holding⟩
  · intro d member
    rcases sound.covered d member with dialed | slot | ⟨returned, j, taken⟩
    · exact .inl dialed
    · by_cases same : openId d = closeId k
      · have returned : (s.opens d).Returned := by
          rw [(sound.published _ slot rfl).1]
          trivial
        refine .inr (.inr ⟨returned, k, mem_append_left _ ?_⟩)
        rw [found d member same returned]
        exact mem_singleton_self _
      · exact .inr (.inl (mem_deleteSlot.mpr ⟨slot, same⟩))
    · exact .inr (.inr ⟨returned, j, mem_append_right _ taken⟩)
  · intro p member
    rcases mem_append.mp member with new | earlier
    · obtain ⟨d, session, rfl⟩ := List.mem_map.mp new
      refine ⟨before, ?_⟩
      change update s.closes k _ k = _
      rw [update_self, mem_toList.mp session]
    · obtain ⟨given, closing⟩ := sound.taken p earlier
      refine ⟨given, ?_⟩
      change update s.closes k _ p.1 = _
      rw [update_of_ne (other _ _ closing nofun)]
      exact closing
  · have count := sound.count
    change (deleteSlot s.slots (closeId k)).length + (_ ++ s.pending).length ≤ s.maxSessions
    cases session : writeTunnel s (closeId k) with
    | none =>
      have shorter := length_deleteSlot_le s.slots (closeId k)
      simp only [toList_none, map_nil, nil_append]
      omega
    | some d =>
      obtain ⟨slot, same⟩ := sound.taken_slot session
      have shorter := length_deleteSlot slot
      rw [← same]
      simp only [toList_some, map_cons, map_nil, singleton_append, length_cons] at shorter ⊢
      omega
  · intro j given stage
    replace stage := closes_of_update stage nofun
    exact sound.called j given stage
  · intro j given session closing d member
    change update s.closes k _ j = _ at closing
    by_cases same : j = k
    · subst same
      rw [update_self] at closing
      cases closing
      rcases member with listed | taken
      · obtain ⟨begun, name⟩ := sound.called j before called d listed
        have returned := returns d begun name
        refine ⟨returned, fun slot => (mem_deleteSlot.mp slot).2 name, fun opened => ?_⟩
        exact found d opened name returned
      · obtain ⟨slot, name⟩ := sound.taken_slot taken
        have stage : s.opens d = .returned true := (sound.published _ slot rfl).1
        refine ⟨?_, fun still => (mem_deleteSlot.mp still).2 name, fun _ => taken⟩
        change (s.opens d).Returned
        rw [stage]
        trivial
    · rw [update_of_ne same] at closing
      obtain ⟨returned, gone, shut⟩ := sound.closing j given session closing d member
      exact ⟨returned, fun slot => gone (past _ slot), shut⟩
  · intro j given closed d member
    replace closed := closes_of_update closed nofun
    obtain ⟨returned, gone, shut⟩ := sound.closed j given closed d member
    exact ⟨returned, fun slot => gone (past _ slot), shut⟩
  · intro stopped
    obtain ⟨slots, pending, opened⟩ := sound.stopped stopped
    have nothing : writeTunnel s (closeId k) = none := by
      rw [writeTunnel, lookup, slots]
      rfl
    refine ⟨?_, ?_, opened⟩
    · change deleteSlot s.slots (closeId k) = []
      rw [slots]
      rfl
    · change _ ++ s.pending = []
      rw [nothing, pending]
      rfl

theorem closeSession_sound (sound : TunnelSound openId closeId s) {before : List ℕ} {session : Option ℕ}
    (closing : s.closes k = .closing before session) :
    TunnelSound openId closeId { s.setClose k (.returned before) with
      opened := s.opened.filter fun c => session ≠ some c
      pending := s.pending.filter fun p => p.1 ≠ k } := by
  have open_iff : ∀ d, d ∈ s.opened.filter (fun c => session ≠ some c) ↔ d ∈ s.opened ∧ session ≠ some d :=
    fun d => by rw [mem_filter, decide_eq_true_eq]
  have left : ∀ p, p ∈ s.pending.filter (fun p => p.1 ≠ k) ↔ p ∈ s.pending ∧ p.1 ≠ k :=
    fun p => by rw [mem_filter, decide_eq_true_eq]
  have unopened : ∀ d, d ∉ s.opened → d ∉ s.opened.filter (fun c => session ≠ some c) :=
    fun d shut member => shut ((open_iff d).mp member).1
  refine ⟨sound.ids, sound.named, sound.reserved, ?_, sound.held, sound.begun, sound.distinct.filter _, ?_, ?_, ?_, ?_, ?_,
    ?_, ?_, ?_⟩
  · intro slot member published
    obtain ⟨returned, opened | ended⟩ := sound.published slot member published
    · refine ⟨returned, .inl ((open_iff _).mpr ⟨opened, fun same => ?_⟩)⟩
      apply (sound.closing k before session closing slot.call (.inr same)).2.1
      obtain ⟨id, call, filled⟩ := slot
      obtain rfl : id = openId call := sound.named _ member
      obtain rfl : filled = true := published
      exact member
    · exact ⟨returned, .inr ended⟩
  · exact fun d member => sound.live d ((open_iff d).mp member).1
  · intro d member
    obtain ⟨opened, other⟩ := (open_iff d).mp member
    rcases sound.covered d opened with dialed | slot | ⟨returned, j, taken⟩
    · exact .inl dialed
    · exact .inr (.inl slot)
    · refine .inr (.inr ⟨returned, j, (left _).mpr ⟨taken, ?_⟩⟩)
      rintro rfl
      obtain ⟨given, stage⟩ := sound.taken _ taken
      rw [closing] at stage
      cases stage
      exact other rfl
  · intro p member
    obtain ⟨pending, different⟩ := (left p).mp member
    obtain ⟨given, stage⟩ := sound.taken p pending
    refine ⟨given, ?_⟩
    change update s.closes k _ p.1 = _
    rw [update_of_ne different]
    exact stage
  · have count := sound.count
    have fewer := length_filter_le (fun p : ℕ × ℕ => decide (p.1 ≠ k)) s.pending
    change s.slots.length + (s.pending.filter _).length ≤ s.maxSessions
    omega
  · intro j given stage
    replace stage := closes_of_update stage nofun
    exact sound.called j given stage
  · intro j given other stage d member
    replace stage := closes_of_update stage nofun
    obtain ⟨returned, gone, shut⟩ := sound.closing j given other stage d member
    exact ⟨returned, gone, fun opened => shut ((open_iff d).mp opened).1⟩
  · intro j given stage d member
    change update s.closes k _ j = _ at stage
    by_cases same : j = k
    · subst same
      rw [update_self] at stage
      cases stage
      obtain ⟨returned, gone, shut⟩ := sound.closing j before session closing d (.inl member)
      refine ⟨returned, gone, fun opened => ?_⟩
      obtain ⟨still, other⟩ := (open_iff d).mp opened
      exact other (shut still)
    · rw [update_of_ne same] at stage
      obtain ⟨returned, gone, shut⟩ := sound.closed j given stage d member
      exact ⟨returned, gone, unopened d shut⟩
  · intro stopped
    obtain ⟨slots, pending, opened⟩ := sound.stopped stopped
    refine ⟨slots, ?_, ?_⟩
    · change s.pending.filter _ = []
      rw [pending]
      rfl
    · change s.opened.filter _ = []
      rw [opened]
      rfl

theorem mem_publishedCalls {slots : List Slot} :
    c ∈ publishedCalls slots ↔ ∃ slot ∈ slots, slot.published = true ∧ slot.call = c := by
  simp only [publishedCalls, List.mem_map, mem_filter, and_assoc]

theorem stop_sound (sound : TunnelSound openId closeId s) (safe : SafeTunnelEvent openId closeId s .stop) :
    TunnelSound openId closeId { s with
      stopped := true
      opened := s.opened.filter fun c => c ∉ publishedCalls s.slots
      slots := [] } := by
  obtain ⟨filled, none⟩ := safe
  have unheld : ∀ d, ¬(s.opens d).Holding := by
    intro d holding
    cases filled _ (sound.held d holding)
  have closed : s.opened.filter (fun c => c ∉ publishedCalls s.slots) = [] := by
    rw [filter_eq_nil_iff]
    intro c member
    rw [decide_eq_true_eq, not_not, mem_publishedCalls]
    rcases sound.covered c member with dialed | slot | ⟨-, k, taken⟩
    · exact absurd (by rw [dialed]; trivial) (unheld c)
    · exact ⟨_, slot, rfl, rfl⟩
    · rw [none] at taken
      cases taken
  rw [closed]
  exact
    { ids := nodup_nil
      named := nofun
      reserved := nofun
      published := nofun
      held := fun d holding => absurd holding (unheld d)
      begun := sound.begun
      distinct := nodup_nil
      live := nofun
      covered := nofun
      taken := sound.taken
      count := by
        change 0 + s.pending.length ≤ s.maxSessions
        rw [none]
        exact Nat.zero_le _
      called := sound.called
      closing := fun k before session closing d member => ⟨(sound.closing k before session closing d member).1, nofun, nofun⟩
      closed := fun k before closed d member => ⟨(sound.closed k before closed d member).1, nofun, nofun⟩
      stopped := fun _ => ⟨rfl, none, rfl⟩ }

/-- A connection that is not published yet is open, or its read loop has ended and not called back. -/
def Linked (s : TunnelManager) : Prop := ∀ c, s.opens c = .dialed → c ∈ s.opened ∨ s.readers c = .ended

theorem Linked.setOpen (linked : Linked s) (other : stage ≠ .dialed) :
    ∀ d, (update s.opens c stage) d = .dialed → d ∈ s.opened ∨ s.readers d = .ended := by
  intro d dialed
  by_cases same : d = c
  · rw [same, update_self] at dialed
    exact absurd dialed other
  · rw [update_of_ne same] at dialed
    exact linked d dialed

theorem tunnelStep_sound (sound : TunnelSound openId closeId s) (linked : Linked s)
    (safe : SafeTunnelEvent openId closeId s event) (stepped : tunnelStep openId closeId s event = some next) :
    TunnelSound openId closeId next ∧ Linked next := by
  cases event with
  | openTunnel c =>
    simp only [tunnelStep] at stepped
    split_ifs at stepped with idle
    cases stepped
    have early : EarlyCall s c := by
      constructor
      · rw [idle]
        exact id
      · rw [idle]
        exact id
    exact ⟨sound.waits_on early id (subset_cons_self c s.begun) mem_cons_self, linked.setOpen nofun⟩
  | reserve c =>
    simp only [tunnelStep] at stepped
    split_ifs at stepped with called
    cases stepped
    refine ⟨reserveSlot_sound sound called safe, ?_⟩
    unfold reserveSlot
    split_ifs <;> exact linked.setOpen nofun
  | dial c connects =>
    simp only [tunnelStep] at stepped
    split_ifs at stepped with dialing connected
    · cases stepped
      refine ⟨(dial_sound sound dialing).1, fun d dialed => ?_⟩
      by_cases same : d = c
      · exact .inl (same ▸ mem_cons_self)
      · change (update s.opens c _) d = _ at dialed
        change d ∈ c :: s.opened ∨ update s.readers c _ d = _
        rw [update_of_ne same] at dialed ⊢
        exact (linked d dialed).imp_left (mem_cons_of_mem c)
    · cases stepped
      exact ⟨(dial_sound sound dialing).2, linked.setOpen nofun⟩
  | release c =>
    simp only [tunnelStep] at stepped
    split_ifs at stepped with failed
    cases stepped
    exact ⟨release_sound sound failed, linked.setOpen nofun⟩
  | publish c =>
    simp only [tunnelStep] at stepped
    split_ifs at stepped with dialed
    cases stepped
    exact ⟨publish_sound sound dialed (linked c dialed), linked.setOpen nofun⟩
  | readEnd c =>
    simp only [tunnelStep] at stepped
    split_ifs at stepped
    cases stepped
    refine ⟨readEnd_sound sound, fun d dialed => ?_⟩
    change d ∈ s.opened.erase c ∨ update s.readers c _ d = _
    by_cases same : d = c
    · rw [same, update_self]
      exact .inr rfl
    · rw [update_of_ne same]
      exact (linked d dialed).imp_left (mem_erase_of_ne same).mpr
  | callback c =>
    simp only [tunnelStep] at stepped
    split_ifs at stepped with ended
    cases stepped
    refine ⟨callback_sound sound ended safe, fun d dialed => ?_⟩
    have different : d ≠ c := by
      rintro rfl
      have slot := sound.held d (by rw [show s.opens d = .dialed from dialed]; trivial)
      cases (safe _ slot rfl).2
    change _ ∨ update s.readers c _ d = _
    rw [update_of_ne different]
    exact linked d dialed
  | closeTunnel k =>
    simp only [tunnelStep] at stepped
    split_ifs at stepped with idle
    cases stepped
    exact ⟨closeTunnel_sound sound idle, linked⟩
  | takeOut k =>
    simp only [tunnelStep] at stepped
    split at stepped
    next before called =>
      cases stepped
      exact ⟨takeOut_sound sound called safe, linked⟩
    · cases stepped
  | closeSession k =>
    simp only [tunnelStep] at stepped
    split at stepped
    next before session closing =>
      cases stepped
      refine ⟨closeSession_sound sound closing, fun d dialed => ?_⟩
      refine (linked d dialed).imp_left fun opened => mem_filter.mpr ⟨opened, decide_eq_true fun same => ?_⟩
      have returned := (sound.closing k before session closing d (.inr same)).1
      rw [show s.opens d = .dialed from dialed] at returned
      exact returned
    · cases stepped
  | stop =>
    simp only [tunnelStep] at stepped
    split_ifs at stepped
    · cases stepped
      exact ⟨sound, linked⟩
    · cases stepped
      refine ⟨stop_sound sound safe, fun d dialed => ?_⟩
      have slot := sound.held d (by rw [show s.opens d = .dialed from dialed]; trivial)
      cases safe.1 _ slot

theorem newManagerOf_sound (openId closeId : ℕ → Text) (maxSessions : ℕ) :
    TunnelSound openId closeId (newManagerOf maxSessions) where
  ids := nodup_nil
  named := nofun
  reserved := nofun
  published := nofun
  held := fun _ holding => holding.elim
  begun := fun _ started => absurd rfl started
  distinct := nodup_nil
  live := nofun
  covered := nofun
  taken := nofun
  count := Nat.zero_le _
  called := nofun
  closing := nofun
  closed := nofun
  stopped := nofun

end Steps

theorem safe_tunnels_stay_closed (openId closeId : ℕ → Text) (maxSessions : ℕ) (events : List TunnelEvent)
    (s : TunnelManager)
    (safe : Meets (tunnelStep openId closeId) (SafeTunnelEvent openId closeId) (newManagerOf maxSessions) events)
    (reached : run (tunnelStep openId closeId) (newManagerOf maxSessions) events = some s) : StaysClosed s := by
  have keep : ∀ s e next, TunnelSound openId closeId s ∧ Linked s → SafeTunnelEvent openId closeId s e →
      tunnelStep openId closeId s e = some next → TunnelSound openId closeId next ∧ Linked next :=
    fun s e next sound safe stepped => tunnelStep_sound sound.1 sound.2 safe stepped
  have start : Linked (newManagerOf maxSessions) := fun _ => nofun
  exact (run_invariant keep ⟨newManagerOf_sound openId closeId maxSessions, start⟩ safe reached).1.staysClosed

def tunnelId (_ : ℕ) : Text := "t".toList

def reopenedEvents : List TunnelEvent :=
  [.openTunnel 0, .reserve 0, .dial 0 true, .publish 0, .closeTunnel 0, .takeOut 0, .closeSession 0, .readEnd 0,
    .callback 0, .openTunnel 1, .reserve 1, .dial 1 true, .publish 1]

def closedInDial : List TunnelEvent :=
  [.openTunnel 0, .reserve 0, .closeTunnel 0, .takeOut 0, .closeSession 0, .dial 0 true, .publish 0]

theorem reopened_tunnel_stays_closed :
    ∃ s, run (tunnelStep tunnelId tunnelId) (newManagerOf 5) reopenedEvents = some s ∧ s.opened = [1] ∧
      StaysClosed s := by
  have outcome : (run (tunnelStep tunnelId tunnelId) (newManagerOf 5) reopenedEvents).map TunnelManager.opened =
      some [1] := by decide +kernel
  obtain ⟨s, reached, opened⟩ := map_eq_some_iff.mp outcome
  refine ⟨s, reached, opened, ?_⟩
  exact safe_tunnels_stay_closed tunnelId tunnelId 5 reopenedEvents s (by decide +kernel) reached

/-- The call that opens the tunnel publishes it after it was closed. -/
theorem tunnel_closed_in_dial_is_open :
    ∃ s, run (tunnelStep tunnelId tunnelId) (newManagerOf 5) closedInDial = some s ∧ s.closes 0 = .returned [0] ∧
      (s.opens 0).Returned ∧ 0 ∈ s.opened ∧ writeTunnel s (tunnelId 0) = some 0 ∧ ¬StaysClosed s := by
  have outcome : (run (tunnelStep tunnelId tunnelId) (newManagerOf 5) closedInDial).map (fun s =>
      decide (s.closes 0 = .returned [0] ∧ (s.opens 0).Returned ∧ 0 ∈ s.opened ∧
        writeTunnel s (tunnelId 0) = some 0)) = some true := by decide +kernel
  obtain ⟨s, reached, decided⟩ := map_eq_some_iff.mp outcome
  obtain ⟨closed, returned, opened, written⟩ := of_decide_eq_true decided
  refine ⟨s, reached, closed, returned, opened, written, fun kept => ?_⟩
  have all : ∀ c ∈ [0], (s.opens c).Returned := by
    intro c member
    rw [mem_singleton.mp member]
    exact returned
  exact (kept.closed 0 [0] closed all 0 (mem_singleton_self 0)).1 opened

end RemudaRmm.Endpoint
