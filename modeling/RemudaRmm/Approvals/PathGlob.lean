import RemudaRmm.Approvals.PamRuleEngine

/-! What a path glob (`matchPathGlob` of `pamBridge.ts`) matches: the texts that can be cut into one piece for each of
its tokens. -/
namespace RemudaRmm.Approvals
open Foundation List

def PamPlatform.norm (platform : PamPlatform) (s : Text) : Text :=
  platform.toLowerCase (s.map fun c => if c = '\\' then '/' else c)

def GlobToken.Takes : GlobToken → Text → Prop
  | .literal ch, piece => piece = [ch]
  | .star crossesSlash, piece => crossesSlash = true ∨ '/' ∉ piece

def Covered (tokens : List GlobToken) (t : Text) : Prop :=
  ∃ pieces, List.Forall₂ GlobToken.Takes tokens pieces ∧ pieces.flatten = t

section Covering
variable {token : GlobToken} {tokens others : List GlobToken} {crossesSlash : Bool} {c ch : Char} {t : Text}

/-- A row tells of every end of a text whether it satisfies a condition. -/
def Tells (condition : Text → Prop) : Text → List Bool → Prop
  | [], row => ∃ last, row = [last] ∧ (last = true ↔ condition [])
  | c :: t, row => ∃ here later, row = here :: later ∧ (here = true ↔ condition (c :: t)) ∧ Tells condition t later

theorem Tells.head {condition : Text → Prop} {row : List Bool} (tells : Tells condition t row) :
    row.headD false = true ↔ condition t := by
  cases t with
  | nil =>
    obtain ⟨last, rfl, means⟩ := tells
    exact means
  | cons c t =>
    obtain ⟨here, later, rfl, means, -⟩ := tells
    exact means

end Covering

end RemudaRmm.Approvals
