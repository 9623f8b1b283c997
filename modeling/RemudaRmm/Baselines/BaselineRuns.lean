import RemudaRmm.Foundation.Runs
import RemudaRmm.Baselines.NetworkBaseline

/-! Sequences of scans of one network baseline: which of them report each change once and forget nothing. -/
namespace RemudaRmm.Baselines
open Foundation List Option List InsertionMap InsertionMap

/-- A scan as it went: what was known before, the hosts of the scan before it, its call and the events it created. -/
structure Scanned where
  before : List KnownNetworkDevice
  previous : Option (List DiscoveredHostResult)
  call : ScanCall
  created : List NetworkChangeEvent

structure ScanState where
  baseline : NetworkBaseline
  last : Option Scanned

def freshBaseline : ScanState := ⟨⟨[], []⟩, none⟩

def scannedIps (hosts : List DiscoveredHostResult) : List Text :=
  (hosts.filter fun host => host.ip ≠ []).map (·.ip)

section Scans
variable (p : Platform) (discovered : Text → Option DiscoveredAsset)
variable {hosts : List EnrichedDiscoveredHost} {known : List KnownNetworkDevice} {d : KnownNetworkDevice}

def scanStep (s : ScanState) (call : ScanCall) : Option ScanState :=
  (compareBaselineScan p discovered s.baseline call).map fun result =>
    ⟨result.1, some ⟨s.baseline.knownDevices, s.last.map (·.call.hosts), call, result.2⟩⟩

/-- What the last scan is to have done. -/
structure Faithful (s : ScanState) (scan : Scanned) : Prop where
  distinct : (s.baseline.knownDevices.map (·.ip)).Nodup
  knownKept : ∀ d ∈ scan.before, ∃ d' ∈ s.baseline.knownDevices, d'.ip = d.ip ∧ d'.firstSeen = d.firstSeen
  scannedKept : ∀ ip ∈ scannedIps scan.call.hosts, ∃ d ∈ s.baseline.knownDevices, d.ip = ip
  newOnce : ((scan.created.filter fun e => e.eventType = .newDevice).map (·.ipAddress)).Nodup
  newUnknown : ∀ e ∈ scan.created, e.eventType = .newDevice → ∀ d ∈ scan.before, d.ip ≠ e.ipAddress
  quiet : scan.previous = some scan.call.hosts →
    ∀ e ∈ scan.created, e.eventType ≠ .newDevice ∧ e.eventType ≠ .deviceChanged

def Right (s : ScanState) : Prop := ∀ scan, s.last = some scan → Faithful s scan

/-- No address is scanned twice or has white space around it, and where the hosts are those of the scan before, one
without MAC or hostname has none known either. -/
def Clean (s : ScanState) (call : ScanCall) : Prop :=
  (scannedIps call.hosts).Nodup ∧ (∀ ip ∈ scannedIps call.hosts, trim ip = ip) ∧
    (s.last.map (·.call.hosts) = some call.hosts →
      ∀ host ∈ enrichedHosts p discovered call.hosts, ∀ d ∈ s.baseline.knownDevices, d.ip = host.ip →
        (host.mac = none → normalizeName p d.mac = none) ∧
          (host.hostname = none → normalizeName p d.hostname = none))

/-- What the scan found of a host is known. -/
structure Remembers (known : List KnownNetworkDevice) (host : EnrichedDiscoveredHost) : Prop where
  found : ∃ d ∈ known, d.ip = host.ip ∧ d.assetType = host.assetType ∧
    (∀ m, host.mac = some m → d.mac = some m) ∧ ∀ n, host.hostname = some n → d.hostname = some n

structure Inv (s : ScanState) : Prop where
  distinct : (s.baseline.knownDevices.map (·.ip)).Nodup
  tidy : ∀ d ∈ s.baseline.knownDevices, d.ip ≠ [] ∧ trim d.ip = d.ip
  remembers : ∀ scan, s.last = some scan →
    ∀ host ∈ enrichedHosts p discovered scan.call.hosts, Remembers s.baseline.knownDevices host

def cleaned (d : KnownNetworkDevice) : KnownNetworkDevice :=
  { d with linkedDeviceId := resolveLinkedDeviceId d.linkedDeviceId }

theorem parseKnownDevices_tidy {stored : List KnownNetworkDevice} (tidy : ∀ d ∈ stored, d.ip ≠ [] ∧ trim d.ip = d.ip) :
    parseKnownDevices stored = stored.map cleaned := by
  induction stored with
  | nil => rfl
  | cons d stored ih =>
    obtain ⟨filled, trimmed⟩ := tidy d mem_cons_self
    have rest := ih fun x member => tidy x (mem_cons_of_mem d member)
    rw [parseKnownDevices] at rest ⊢
    rw [filterMap_cons, trimmed, if_neg filled, rest]
    rfl

theorem fold_mergeHost_left (now : ℤ) (filled : ∀ h ∈ hosts, h.ip ≠ [])
    (entries : List (Text × KnownNetworkDevice)) (merged : List KnownNetworkDevice) :
    (hosts.foldl (mergeHost now) (entries, merged)).1 = entries.filter fun e => e.1 ∉ hosts.map (·.ip) := by
  induction hosts generalizing entries merged with
  | nil => simp
  | cons h hosts ih =>
    rw [foldl_cons, mergeHost, if_neg (filled h mem_cons_self),
      ih (fun x member => filled x (mem_cons_of_mem h member)), remove, List.filter_filter]
    refine filter_congr fun e _ => ?_
    simp only [map_cons, mem_cons, not_or, ne_eq, Bool.decide_and]
    exact Bool.and_comm _ _

theorem fold_mergeHost_ips (now : ℤ) (filled : ∀ h ∈ hosts, h.ip ≠ [])
    (entries : List (Text × KnownNetworkDevice)) (merged : List KnownNetworkDevice) :
    (hosts.foldl (mergeHost now) (entries, merged)).2.map (·.ip) = merged.map (·.ip) ++ hosts.map (·.ip) := by
  induction hosts generalizing entries merged with
  | nil => simp
  | cons h hosts ih =>
    rw [foldl_cons, mergeHost, if_neg (filled h mem_cons_self),
      ih (fun x member => filled x (mem_cons_of_mem h member)), map_append, append_assoc]
    rfl

theorem fold_mergeHost_right (now : ℤ) (filled : ∀ h ∈ hosts, h.ip ≠ [])
    (ips : (hosts.map (·.ip)).Nodup) (entries : List (Text × KnownNetworkDevice)) (merged : List KnownNetworkDevice) :
    (hosts.foldl (mergeHost now) (entries, merged)).2 =
      merged ++ hosts.map fun h => mergedDevice now (get h.ip entries) h := by
  induction hosts generalizing entries merged with
  | nil => simp
  | cons h hosts ih =>
    rw [map_cons, nodup_cons] at ips
    rw [foldl_cons, mergeHost, if_neg (filled h mem_cons_self),
      ih (fun x member => filled x (mem_cons_of_mem h member)) ips.2, append_assoc, map_cons,
      singleton_append]
    congr 2
    refine map_congr_left fun x member => ?_
    have other : x.ip ≠ h.ip := fun same => ips.1 (mem_map.mpr ⟨x, member, same⟩)
    exact congrArg (mergedDevice now · x) (get_remove_of_ne other entries)

theorem enrichedHosts_filled (hosts : List DiscoveredHostResult) :
    ∀ h ∈ enrichedHosts p discovered hosts, h.ip ≠ [] := by
  intro h member
  obtain ⟨host, listed, rfl⟩ := mem_map.mp member
  exact of_decide_eq_true (mem_filter.mp listed).2

theorem enrichedHosts_ips (hosts : List DiscoveredHostResult) :
    (enrichedHosts p discovered hosts).map (·.ip) = scannedIps hosts := by
  rw [enrichedHosts, scannedIps, List.map_map]
  rfl

theorem mergeKnownDevices_ips (now : ℤ) (filled : ∀ d ∈ known, d.ip ≠ [])
    (ips : (known.map (·.ip)).Nodup) (hostsFilled : ∀ h ∈ hosts, h.ip ≠ []) :
    (mergeKnownDevices now known hosts).map (·.ip) =
      hosts.map (·.ip) ++ (known.map (·.ip)).filter fun ip => ip ∉ hosts.map (·.ip) := by
  have all : (known.filter fun device => device.ip ≠ []) = known := filter_eq_self.mpr fun d member => by
    simpa using filled d member
  rw [mergeKnownDevices]
  simp only [map_append]
  rw [fold_mergeHost_ips now hostsFilled, fold_mergeHost_left now hostsFilled, all,
    ofValues_of_nodup _ ips, List.filter_map, List.filter_map, List.map_map, List.map_map]
  rfl

theorem mergeKnownDevices_nodup (now : ℤ) (filled : ∀ d ∈ known, d.ip ≠ [])
    (ips : (known.map (·.ip)).Nodup) (hostsFilled : ∀ h ∈ hosts, h.ip ≠ []) :
    ((mergeKnownDevices now known hosts).map (·.ip)).Nodup ↔ (hosts.map (·.ip)).Nodup := by
  rw [mergeKnownDevices_ips now filled ips hostsFilled]
  constructor
  · exact fun both => (nodup_append.mp both).1
  · intro distinct
    refine nodup_append.mpr ⟨distinct, ips.filter _, ?_⟩
    rintro a member b other rfl
    exact absurd member (by simpa using (mem_filter.mp other).2)

theorem mem_mergeKnownDevices (now : ℤ) (filled : ∀ d ∈ known, d.ip ≠ [])
    (ips : (known.map (·.ip)).Nodup) (hostsFilled : ∀ h ∈ hosts, h.ip ≠ []) (distinct : (hosts.map (·.ip)).Nodup) :
    d ∈ mergeKnownDevices now known hosts ↔
      (∃ h ∈ hosts, d = mergedDevice now (get h.ip (known.map fun x => (x.ip, x))) h) ∨
        (d ∈ known ∧ d.ip ∉ hosts.map (·.ip)) := by
  have all : (known.filter fun device => device.ip ≠ []) = known := filter_eq_self.mpr fun d member => by
    simpa using filled d member
  rw [mergeKnownDevices, fold_mergeHost_right now hostsFilled distinct, fold_mergeHost_left now hostsFilled, all,
    ofValues_of_nodup _ ips, nil_append, mem_append]
  refine or_congr ?_ ?_
  · rw [List.mem_map]
    exact exists_congr fun h => and_congr_right fun _ => eq_comm
  · constructor
    · intro member
      obtain ⟨entry, kept, rfl⟩ := mem_map.mp member
      obtain ⟨listed, apart⟩ := mem_filter.mp kept
      obtain ⟨x, inside, rfl⟩ := mem_map.mp listed
      exact ⟨inside, of_decide_eq_true apart⟩
    · rintro ⟨inside, apart⟩
      refine mem_map.mpr ⟨(d.ip, d), mem_filter.mpr ⟨?_, decide_eq_true apart⟩, rfl⟩
      exact mem_map.mpr ⟨d, inside, rfl⟩

theorem tryQueueEvent_events (pending : Pending) (e : NetworkChangeEvent) :
    (pending.tryQueueEvent p e).events = pending.events ∨
      (pending.tryQueueEvent p e).events = pending.events ++ [e] := by
  unfold Pending.tryQueueEvent
  split_ifs
  · exact .inl rfl
  · exact .inr rfl

theorem compareHost_new (now : ℤ) (policy : OrgNetworkPolicy) (knownByIp : List (Text × KnownNetworkDevice))
    (pending : Pending) (host : EnrichedDiscoveredHost) :
    ∃ added, (compareHost p now policy knownByIp pending host).events = pending.events ++ added ∧
      ((added.filter fun e => e.eventType = .newDevice).map (·.ipAddress)).Sublist [host.ip] ∧
      ∀ e ∈ added, e.eventType = .newDevice → get host.ip knownByIp = none ∧ e.ipAddress = host.ip := by
  unfold compareHost
  cases found : get host.ip knownByIp with
  | some existing =>
    dsimp only
    split_ifs
    · rcases tryQueueEvent_events p pending (hostEvent .deviceChanged now (some existing) host) with same | more
      · exact ⟨[], by rw [same, append_nil], by simp, by simp⟩
      · exact ⟨_, more, by simp [hostEvent], by simp [hostEvent]⟩
    · exact ⟨[], (append_nil _).symm, by simp, by simp⟩
  | none =>
    dsimp only
    have first : ∃ added, (pending.tryQueueEvent p (hostEvent .newDevice now none host)).events =
        pending.events ++ added ∧ (added = [] ∨ added = [hostEvent .newDevice now none host]) := by
      rcases tryQueueEvent_events p pending (hostEvent .newDevice now none host) with same | more
      · exact ⟨[], by rw [same, append_nil], .inl rfl⟩
      · exact ⟨_, more, .inr rfl⟩
    obtain ⟨added, queued, which⟩ := first
    have plain : ((added.filter fun e => e.eventType = .newDevice).map (·.ipAddress)).Sublist [host.ip] ∧
        ∀ e ∈ added, e.eventType = .newDevice → e.ipAddress = host.ip := by
      rcases which with rfl | rfl
      · exact ⟨by simp, by simp⟩
      · exact ⟨by simp [hostEvent], by simp [hostEvent]⟩
    split_ifs
    · rcases tryQueueEvent_events p (pending.tryQueueEvent p (hostEvent .newDevice now none host))
        (hostEvent .rogueDevice now none host) with same | more
      · exact ⟨added, by rw [same, queued], plain.1, fun e member type => ⟨rfl, plain.2 e member type⟩⟩
      · refine ⟨added ++ [hostEvent .rogueDevice now none host], ?_, ?_, ?_⟩
        · rw [more, queued, append_assoc]
        · rw [filter_append]
          simpa [hostEvent] using plain.1
        · intro e member type
          rcases mem_append.mp member with earlier | last
          · exact ⟨rfl, plain.2 e earlier type⟩
          · rw [mem_singleton.mp last] at type
            cases type
    · exact ⟨added, queued, plain.1, fun e member type => ⟨rfl, plain.2 e member type⟩⟩

theorem fold_compareHost_new (now : ℤ) (policy : OrgNetworkPolicy) (knownByIp : List (Text × KnownNetworkDevice))
    (hosts : List EnrichedDiscoveredHost) (pending : Pending) :
    ∃ added, (hosts.foldl (compareHost p now policy knownByIp) pending).events = pending.events ++ added ∧
      ((added.filter fun e => e.eventType = .newDevice).map (·.ipAddress)).Sublist (hosts.map (·.ip)) ∧
      ∀ e ∈ added, e.eventType = .newDevice → get e.ipAddress knownByIp = none := by
  induction hosts generalizing pending with
  | nil => exact ⟨[], (append_nil _).symm, by simp, by simp⟩
  | cons host hosts ih =>
    obtain ⟨mine, first, once, fresh⟩ := compareHost_new p now policy knownByIp pending host
    obtain ⟨others, rest, onceLater, freshLater⟩ := ih (compareHost p now policy knownByIp pending host)
    refine ⟨mine ++ others, ?_, ?_, ?_⟩
    · rw [foldl_cons, rest, first, append_assoc]
    · rw [filter_append, map_append, map_cons]
      exact once.append onceLater
    · intro e member type
      rcases mem_append.mp member with here | later
      · obtain ⟨none, same⟩ := fresh e here type
        rw [same, none]
      · exact freshLater e later type

theorem fold_compareHost_same (now : ℤ) (policy : OrgNetworkPolicy) (knownByIp : List (Text × KnownNetworkDevice))
    (same : ∀ host ∈ hosts, ∃ existing,
      get host.ip knownByIp = some existing ∧ hasHostChanged p existing host = false) (pending : Pending) :
    hosts.foldl (compareHost p now policy knownByIp) pending = pending := by
  induction hosts generalizing pending with
  | nil => rfl
  | cons host hosts ih =>
    obtain ⟨existing, found, unchanged⟩ := same host mem_cons_self
    have nothing : compareHost p now policy knownByIp pending host = pending := by
      rw [compareHost, found]
      simp [unchanged]
    rw [foldl_cons, nothing]
    exact ih (fun other member => same other (mem_cons_of_mem host member)) pending

theorem fold_compareKnown (now : ℤ) (ips : List Text) (known : List KnownNetworkDevice) (pending : Pending) :
    ∃ added, (known.foldl (compareKnown p now ips) pending).events = pending.events ++ added ∧
      ∀ e ∈ added, e.eventType = .deviceDisappeared := by
  induction known generalizing pending with
  | nil => exact ⟨[], (append_nil _).symm, by simp⟩
  | cons d known ih =>
    obtain ⟨others, rest, gone⟩ := ih (compareKnown p now ips pending d)
    have first : ∃ mine, (compareKnown p now ips pending d).events = pending.events ++ mine ∧
        ∀ e ∈ mine, e.eventType = .deviceDisappeared := by
      unfold compareKnown
      split_ifs
      · exact ⟨[], (append_nil _).symm, by simp⟩
      · exact ⟨[], (append_nil _).symm, by simp⟩
      · rcases tryQueueEvent_events p pending _ with same | more
        · exact ⟨[], by rw [same, append_nil], by simp⟩
        · exact ⟨_, more, by simp⟩
    obtain ⟨mine, queued, goneFirst⟩ := first
    refine ⟨mine ++ others, by rw [foldl_cons, rest, queued, append_assoc], ?_⟩
    intro e member
    exact (mem_append.mp member).elim (goneFirst e) (gone e)

variable {p discovered} {s t : ScanState} {call : ScanCall}

theorem scanStep_eq (stepped : scanStep p discovered s call = some t) :
    t.baseline.knownDevices = mergeKnownDevices call.now (parseKnownDevices s.baseline.knownDevices)
        (enrichedHosts p discovered call.hosts) ∧
      t.last = some ⟨s.baseline.knownDevices, s.last.map (·.call.hosts), call,
        (pendingEvents p discovered s.baseline call).events⟩ := by
  obtain ⟨result, compared, rfl⟩ := map_eq_some_iff.mp stepped
  obtain ⟨rows, -, rfl⟩ := map_eq_some_iff.mp compared
  exact ⟨rfl, rfl⟩

theorem Inv.parsed (inv : Inv p discovered s) :
    parseKnownDevices s.baseline.knownDevices = s.baseline.knownDevices.map cleaned ∧
      ((s.baseline.knownDevices.map cleaned).map (·.ip)).Nodup ∧
      ∀ d ∈ s.baseline.knownDevices.map cleaned, d.ip ≠ [] := by
  refine ⟨parseKnownDevices_tidy inv.tidy, ?_, ?_⟩
  · rw [List.map_map]
    exact inv.distinct
  · intro d member
    obtain ⟨x, listed, rfl⟩ := mem_map.mp member
    exact (inv.tidy x listed).1

theorem Inv.get_iff (inv : Inv p discovered s) {ip : Text} :
    get ip ((s.baseline.knownDevices.map cleaned).map fun x => (x.ip, x)) = some d ↔
      ∃ x ∈ s.baseline.knownDevices, x.ip = ip ∧ d = cleaned x := by
  refine (get_pairs_iff KnownNetworkDevice.ip inv.parsed.2.1).trans ?_
  rw [List.mem_map]
  constructor
  · rintro ⟨⟨x, listed, rfl⟩, same⟩
    exact ⟨x, listed, same, rfl⟩
  · rintro ⟨x, listed, same, rfl⟩
    exact ⟨⟨x, listed, rfl⟩, same⟩

theorem mem_known_after (inv : Inv p discovered s) (clean : Clean p discovered s call)
    (stepped : scanStep p discovered s call = some t) :
    d ∈ t.baseline.knownDevices ↔
      (∃ h ∈ enrichedHosts p discovered call.hosts, d = mergedDevice call.now
        (get h.ip ((s.baseline.knownDevices.map cleaned).map fun x => (x.ip, x))) h) ∨
        (d ∈ s.baseline.knownDevices.map cleaned ∧ d.ip ∉ scannedIps call.hosts) := by
  obtain ⟨parsed, ips, filled⟩ := inv.parsed
  have distinct : ((enrichedHosts p discovered call.hosts).map (·.ip)).Nodup := by
    rw [enrichedHosts_ips]
    exact clean.1
  rw [(scanStep_eq stepped).1, parsed,
    mem_mergeKnownDevices call.now filled ips (enrichedHosts_filled p discovered call.hosts) distinct,
    enrichedHosts_ips]

theorem Inv.step (inv : Inv p discovered s) (clean : Clean p discovered s call)
    (stepped : scanStep p discovered s call = some t) : Inv p discovered t := by
  obtain ⟨parsed, ips, filled⟩ := inv.parsed
  obtain ⟨known, last⟩ := scanStep_eq stepped
  refine ⟨?_, ?_, ?_⟩
  · rw [known, parsed, mergeKnownDevices_nodup call.now filled ips (enrichedHosts_filled p discovered call.hosts),
      enrichedHosts_ips]
    exact clean.1
  · intro d member
    rcases (mem_known_after inv clean stepped).mp member with ⟨h, listed, rfl⟩ | ⟨before, -⟩
    · refine ⟨enrichedHosts_filled p discovered call.hosts h listed, clean.2.1 h.ip ?_⟩
      rw [← enrichedHosts_ips p discovered]
      exact mem_map_of_mem listed
    · obtain ⟨x, inside, rfl⟩ := mem_map.mp before
      exact inv.tidy x inside
  · intro scan same host listed
    cases last.symm.trans same
    refine ⟨_, (mem_known_after inv clean stepped).mpr (.inl ⟨host, listed, rfl⟩), rfl, rfl, ?_, ?_⟩
    · intro m found
      simp [mergedDevice, found]
    · intro n found
      simp [mergedDevice, found]

theorem unchanged_of_repeated (inv : Inv p discovered s) (clean : Clean p discovered s call)
    (repeated : s.last.map (·.call.hosts) = some call.hosts) {host : EnrichedDiscoveredHost}
    (listed : host ∈ enrichedHosts p discovered call.hosts) :
    ∃ existing,
      get host.ip ((s.baseline.knownDevices.map cleaned).map fun x => (x.ip, x)) = some existing ∧
        hasHostChanged p existing host = false := by
  obtain ⟨scan, last, same⟩ := map_eq_some_iff.mp repeated
  obtain ⟨d, member, ip, type, mac, hostname⟩ := (inv.remembers scan last host (same ▸ listed)).found
  obtain ⟨noMac, noHostname⟩ := clean.2.2 repeated host listed d member ip
  refine ⟨cleaned d, inv.get_iff.mpr ⟨d, member, ip, rfl⟩, ?_⟩
  have macs : normalizeName p d.mac = normalizeName p host.mac := by
    cases found : host.mac with
    | none => exact noMac found
    | some m => rw [mac m found]
  have hostnames : normalizeName p d.hostname = normalizeName p host.hostname := by
    cases found : host.hostname with
    | none => exact noHostname found
    | some n => rw [hostname n found]
  simp [hasHostChanged, cleaned, macs, hostnames, type]

theorem Inv.faithful (inv : Inv p discovered s) (clean : Clean p discovered s call)
    (stepped : scanStep p discovered s call = some t) {scan : Scanned} (last : t.last = some scan) :
    Faithful t scan := by
  obtain ⟨parsed, ips, filled⟩ := inv.parsed
  obtain ⟨known, now⟩ := scanStep_eq stepped
  cases now.symm.trans last
  have hostIps := enrichedHosts_ips p discovered call.hosts
  have map : ofValues (·.ip) (parseKnownDevices s.baseline.knownDevices) =
      (s.baseline.knownDevices.map cleaned).map fun x => (x.ip, x) := by
    rw [parsed, ofValues_of_nodup _ ips]
  obtain ⟨fromHosts, hostEvents, once, fresh⟩ := fold_compareHost_new p call.now call.policy
    ((s.baseline.knownDevices.map cleaned).map fun x => (x.ip, x)) (enrichedHosts p discovered call.hosts)
    ⟨(s.baseline.events.filter fun e => call.now - dayMs ≤ e.detectedAt).map (fingerprint p), []⟩
  obtain ⟨fromKnown, knownEvents, gone⟩ := fold_compareKnown p call.now
    ((enrichedHosts p discovered call.hosts).map (·.ip)) (parseKnownDevices s.baseline.knownDevices)
    ((enrichedHosts p discovered call.hosts).foldl (compareHost p call.now call.policy
      ((s.baseline.knownDevices.map cleaned).map fun x => (x.ip, x)))
      ⟨(s.baseline.events.filter fun e => call.now - dayMs ≤ e.detectedAt).map (fingerprint p), []⟩)
  have created : (pendingEvents p discovered s.baseline call).events = fromHosts ++ fromKnown := by
    rw [pendingEvents, map, knownEvents, hostEvents, nil_append]
  have notNew : fromKnown.filter (fun e => e.eventType = .newDevice) = [] := by
    rw [filter_eq_nil_iff]
    intro e member
    simp [gone e member]
  refine ⟨(inv.step clean stepped).distinct, ?_, ?_, ?_, ?_, ?_⟩
  · intro d member
    by_cases scanned : d.ip ∈ scannedIps call.hosts
    · rw [← hostIps] at scanned
      obtain ⟨h, listed, same⟩ := mem_map.mp scanned
      refine ⟨_, (mem_known_after inv clean stepped).mpr (.inl ⟨h, listed, rfl⟩), same, ?_⟩
      rw [inv.get_iff.mpr ⟨d, member, same.symm, rfl⟩]
      rfl
    · exact ⟨cleaned d, (mem_known_after inv clean stepped).mpr (.inr ⟨mem_map_of_mem member, scanned⟩), rfl, rfl⟩
  · intro ip scanned
    rw [← hostIps] at scanned
    obtain ⟨h, listed, same⟩ := mem_map.mp scanned
    exact ⟨_, (mem_known_after inv clean stepped).mpr (.inl ⟨h, listed, rfl⟩), same⟩
  · dsimp only
    rw [created, filter_append, notNew, append_nil]
    exact once.nodup (hostIps ▸ clean.1)
  · intro e member type d before same
    dsimp only at member
    rw [created, mem_append] at member
    rcases member with here | there
    · have none := (get_pairs_eq_none KnownNetworkDevice.ip).mp (fresh e here type)
      exact none (cleaned d) (mem_map_of_mem before) same
    · rw [gone e there] at type
      cases type
  · intro repeated e member
    dsimp only at repeated member
    have nothing : fromHosts = [] := by
      rw [fold_compareHost_same p call.now call.policy _ fun host => unchanged_of_repeated inv clean repeated]
        at hostEvents
      simpa using hostEvents.symm
    rw [created, nothing, nil_append] at member
    rw [gone e member]
    exact ⟨by decide, by decide⟩

theorem inv_fresh : Inv p discovered freshBaseline :=
  ⟨nodup_nil, fun _ none => absurd none not_mem_nil, fun _ none => absurd none (by simp [freshBaseline])⟩

end Scans

end RemudaRmm.Baselines
