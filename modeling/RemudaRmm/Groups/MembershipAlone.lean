import RemudaRmm.Groups.PinnedMembers

/-! A call that no other call interleaves with: its statements do what the evaluation of the group, or of the device,
does at once. -/
namespace RemudaRmm.Groups
open Foundation List Function
open Devices (Filter)

def Reaches (w w' : World) : Prop := ∃ events : List Event, events.foldl step w = w'

section Alone
variable {w w' : World} {i orgId d : ℕ} {unlogged added removed ids : List ℕ} {row : DeviceGroup} {filter : Filter}

theorem Reaches.refl : Reaches w w := ⟨[], rfl⟩

theorem Reaches.event (e : Event) (rest : Reaches (step w e) w') : Reaches w w' := by
  obtain ⟨events, reached⟩ := rest
  exact ⟨e :: events, reached⟩

theorem Reaches.trans {u : World} (one : Reaches w u) (two : Reaches u w') : Reaches w w' := by
  obtain ⟨first, rfl⟩ := one
  obtain ⟨second, rfl⟩ := two
  exact ⟨first ++ second, foldl_append⟩

end Alone

end RemudaRmm.Groups
