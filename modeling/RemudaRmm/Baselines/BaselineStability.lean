import RemudaRmm.Baselines.BaselineRuns

/-! When a network baseline reports each change once and forgets nothing. -/
namespace RemudaRmm.Baselines
open Foundation Option

/-- After clean scans the last one has reported each new device once, none that was known, and nothing where it repeated
the scan before; every address known or scanned is known once, with its first time. The known addresses stay distinct
exactly as long as no scan repeats an address. -/
theorem baseline_reports_once (p : Platform) (discovered : Text → Option DiscoveredAsset) {calls : List ScanCall}
    {s : ScanState} (reach : run (scanStep p discovered) freshBaseline calls = some s)
    (clean : Meets (scanStep p discovered) (Clean p discovered) freshBaseline calls) :
    Right s ∧ ∀ call t, scanStep p discovered s call = some t →
      ((t.baseline.knownDevices.map (·.ip)).Nodup ↔ (scannedIps call.hosts).Nodup) := by
  have keep : ∀ s call t, Inv p discovered s ∧ Right s → Clean p discovered s call →
      scanStep p discovered s call = some t → Inv p discovered t ∧ Right t :=
    fun s call t inv clean stepped =>
      ⟨inv.1.step clean stepped, fun scan last => inv.1.faithful clean stepped last⟩
  have start : Inv p discovered freshBaseline ∧ Right freshBaseline :=
    ⟨inv_fresh, fun _ none => absurd none (by simp [freshBaseline])⟩
  obtain ⟨inv, right⟩ := run_invariant keep start clean reach
  refine ⟨right, fun call t stepped => ?_⟩
  obtain ⟨parsed, ips, filled⟩ := inv.parsed
  rw [(scanStep_eq stepped).1, parsed,
    mergeKnownDevices_nodup call.now filled ips (enrichedHosts_filled p discovered call.hosts), enrichedHosts_ips]

instance decidableClean (p : Platform) (discovered : Text → Option DiscoveredAsset) (s : ScanState) (call : ScanCall) :
    Decidable (Clean p discovered s call) :=
  inferInstanceAs (Decidable ((scannedIps call.hosts).Nodup ∧ (∀ ip ∈ scannedIps call.hosts, trim ip = ip) ∧
    (s.last.map (·.call.hosts) = some call.hosts →
      ∀ host ∈ enrichedHosts p discovered call.hosts, ∀ d ∈ s.baseline.knownDevices, d.ip = host.ip →
        (host.mac = none → normalizeName p d.mac = none) ∧
          (host.hostname = none → normalizeName p d.hostname = none))))

def plainPlatform : Platform := ⟨fun t => t.map Char.toLower, some⟩

def noAssets : Text → Option DiscoveredAsset := fun _ => none

def hostAt (ip : String) (mac : Option String) : DiscoveredHostResult :=
  ⟨ip.toList, mac.map String.toList, none, some "printer".toList, none, none⟩

def scanAt (now : ℤ) (hosts : List DiscoveredHostResult) : ScanCall := ⟨now, hosts, ⟨[], []⟩⟩

def sameHostsTwice : List ScanCall :=
  [scanAt 0 [hostAt "10.0.0.1" (some "aa"), hostAt "10.0.0.2" none],
    scanAt 1000 [hostAt "10.0.0.1" (some "aa"), hostAt "10.0.0.2" none]]

theorem same_hosts_reported_once :
    ∃ s, run (scanStep plainPlatform noAssets) freshBaseline sameHostsTwice = some s ∧ Right s := by
  obtain ⟨s, reach⟩ := isSome_iff_exists.mp (by decide +kernel :
    (run (scanStep plainPlatform noAssets) freshBaseline sameHostsTwice).isSome = true)
  exact ⟨s, reach, (baseline_reports_once plainPlatform noAssets reach (by decide +kernel)).1⟩

def addressTwice : List ScanCall := [scanAt 0 [hostAt "10.0.0.1" (some "aa"), hostAt "10.0.0.1" (some "bb")]]

def macMissing : List ScanCall :=
  [scanAt 0 [hostAt "10.0.0.1" (some "aa")], scanAt 1000 [hostAt "10.0.0.1" none], scanAt 2000 [hostAt "10.0.0.1" none]]

/-- An address that is scanned twice is known twice, and a host without its MAC is reported as changed by each scan. -/
theorem change_reported_again :
    (∃ s, run (scanStep plainPlatform noAssets) freshBaseline addressTwice = some s ∧ ¬Right s) ∧
      ∃ s, run (scanStep plainPlatform noAssets) freshBaseline macMissing = some s ∧ ¬Right s := by
  constructor
  · have known : (run (scanStep plainPlatform noAssets) freshBaseline addressTwice).map (fun s =>
        (s.last.isSome, s.baseline.knownDevices.map (·.ip))) = some (true, ["10.0.0.1".toList, "10.0.0.1".toList]) := by
      decide +kernel
    obtain ⟨s, reach, same⟩ := map_eq_some_iff.mp known
    obtain ⟨done, ips⟩ := Prod.mk.inj same
    obtain ⟨scan, last⟩ := isSome_iff_exists.mp done
    refine ⟨s, reach, fun right => ?_⟩
    have distinct := (right scan last).distinct
    rw [ips] at distinct
    exact absurd distinct (by decide)
  · have again : (run (scanStep plainPlatform noAssets) freshBaseline macMissing).map (fun s =>
        s.last.map fun scan => (decide (scan.previous = some scan.call.hosts), scan.created.map (·.eventType))) =
          some (some (true, [.deviceChanged])) := by
      decide +kernel
    obtain ⟨s, reach, same⟩ := map_eq_some_iff.mp again
    obtain ⟨scan, last, what⟩ := map_eq_some_iff.mp same
    obtain ⟨repeated, types⟩ := Prod.mk.inj what
    obtain ⟨e, others, created, type, -⟩ := List.map_eq_cons_iff.mp types
    refine ⟨s, reach, fun right => ?_⟩
    exact ((right scan last).quiet (of_decide_eq_true repeated) e (created ▸ List.mem_cons_self)).2 type

end RemudaRmm.Baselines
