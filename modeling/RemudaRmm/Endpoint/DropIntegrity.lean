import RemudaRmm.Endpoint.DropTransfer

/-! When a file drop that is reported complete is the file that was sent. -/
namespace RemudaRmm.Endpoint.FileDrop
open Foundation JsonText

/-- In a run whose steps are clean every report is of a whole file and nothing is sent on the closed channel; in any run
only new files directly in the directory are written, a report without failed writes is whole exactly if its chunks were
tidy, and a file that is sent is received. -/
theorem drops_are_whole (host : Host) (receiveDir : Text) (files : Text → Option Bytes) :
    (∀ steps, StepsMeet (step host) Clean (newFileDropHandler receiveDir files) steps →
      Throughout (step host) Right (newFileDropHandler receiveDir files) steps) ∧
    ∀ steps h, h = run host (newFileDropHandler receiveDir files) steps →
      (∀ p, h.files p ≠ files p → files p = none ∧ InDir h.receiveDir p) ∧
      (∀ r t, (r, t) ∈ h.reported → t.accepted = t.writes → (Whole h r t ↔ Tidy t)) ∧
      ∀ (c : ℕ) (buf path content : Bytes) (configured : ℤ) (reads : FileReads content (chunkSizeOf configured))
        (first : Turn) (rest : List Turn), buf ≠ [] → (content.length : ℤ) ≤ maxTransferSize → PlainName (base path) →
        Ready host first.os h c (randomID buf) (replaced (base path)) →
        (∀ turn ∈ first :: rest, turn.carries (randomID buf) = true → turn.os.Smooth) → first.isString = true →
        first.payload :: (rest.filter (Turn.carries (randomID buf))).map Turn.payload =
          sendFile (randomID buf) path content.length reads.parts →
        ∃ r t, (r, t) ∈ (handled host c h (first :: rest)).reported ∧ r.transferID = randomID buf ∧
          r.name = replaced (base path) ∧ r.size = content.length ∧
          (handled host c h (first :: rest)).files r.path = some content := by
  refine ⟨fun steps clean => reports_right host receiveDir files clean, ?_⟩
  rintro steps h rfl
  have inv := (FileDropHandler.inv_new receiveDir files).run host steps
  refine ⟨inv.sound.changed, fun r t member all => whole_iff_tidy inv member all, ?_⟩
  intro c buf path content configured reads first rest some_bytes small plain ready smooth text mine
  exact sent_file_received inv reads some_bytes small plain ready smooth text mine

theorem clean_drop {h : FileDropHandler} (tidy : ∀ e ∈ h.transfers, Tidy e.2) (os : Os) (c : ℕ) (isString : Bool)
    (payload : Bytes) : Clean h (os, .drop c isString payload) := by
  rintro t ⟨-, message, -, -, found⟩ -
  obtain ⟨front, back, split, -⟩ := List.lookup_eq_some_iff.mp found
  exact tidy (message.transferID, t) (split ▸ List.mem_append_right _ List.mem_cons_self)

instance decidableTidy (t : IncomingTransfer) : Decidable (Tidy t) :=
  inferInstanceAs (Decidable (t.accepted.Pairwise (fun w v => Disjoint w.places v.places) ∧
    ∀ w ∈ t.writes, w.data ≠ [] → w.stop ≤ t.size.toNat))

def calm : Os := ⟨true, [], true, none, true, fun _ => true⟩

def calmHost : Host := ⟨none, "/tmp".toList⟩

def freshHandler : FileDropHandler := newFileDropHandler "/d".toList fun _ => none

def told (m : Message) : Turn := ⟨calm, true, encodeMessage m⟩

/-- Four bytes in two chunks, with a message of another transfer between them. -/
def fourBytes : List Turn :=
  [told ⟨dropStart, randomID [1], codes "f", 4, 0, []⟩, told ⟨dropChunk, randomID [1], [], 0, 0, codes "aGk="⟩,
    told ⟨dropComplete, codes "other", [], 0, 0, []⟩, told ⟨dropChunk, randomID [1], [], 0, 2, codes "aGk="⟩,
    told ⟨dropComplete, randomID [1], [], 0, 0, []⟩]

theorem calm_smooth : calm.Smooth := ⟨rfl, rfl, rfl, rfl⟩

def twoParts : FileReads (codes "hihi") (chunkSizeOf 2) :=
  ⟨[codes "hi", codes "hi"], by decide, by decide, by decide⟩

theorem four_bytes_received :
    Throughout (step calmHost) Right freshHandler (fourBytes.flatMap (Turn.steps 0)) ∧
      ∃ r t, (r, t) ∈ (handled calmHost 0 freshHandler fourBytes).reported ∧ r.transferID = randomID [1] ∧
        r.name = replaced (base (codes "dir/f")) ∧ r.size = (codes "hihi").length ∧
        (handled calmHost 0 freshHandler fourBytes).files r.path = some (codes "hihi") := by
  have whole := drops_are_whole calmHost "/d".toList fun _ => none
  constructor
  · refine whole.1 _ ?_
    have clean : ∀ (h : FileDropHandler) (turn : Turn) (es : List (Os × Step)),
        (∀ e ∈ h.transfers, Tidy e.2) → StepsMeet (step calmHost) Clean (run calmHost h (turn.steps 0)) es →
          StepsMeet (step calmHost) Clean h (turn.steps 0 ++ es) := by
      intro h turn es tidy rest
      refine StepsMeet.cons (clean_drop tidy _ _ _ _) (StepsMeet.cons trivial (StepsMeet.cons trivial ?_))
      exact rest
    refine clean _ _ _ (by decide) (clean _ _ _ (by decide +kernel) (clean _ _ _ (by decide +kernel) ?_))
    exact clean _ _ _ (by decide +kernel) (clean _ _ _ (by decide +kernel) StepsMeet.nil)
  · refine (whole.2 [] freshHandler rfl).2.2 0 [1] (codes "dir/f") (codes "hihi") 2 twoParts _ _ (by decide) (by decide)
      ⟨by decide, by decide, by decide, by decide⟩
      ⟨rfl, rfl, rfl, by decide, ⟨["d".toList], by decide, by decide, rfl⟩, rfl⟩ ?_ rfl (by decide +kernel)
    intro turn member _
    have calmly : ∀ turn ∈ fourBytes, turn.os = calm := by simp [fourBytes, told]
    exact calmly turn member ▸ calm_smooth

def sameBytesTwice : List (Os × Step) :=
  [told ⟨dropStart, codes "a", codes "f", 4, 0, []⟩, told ⟨dropChunk, codes "a", [], 0, 0, codes "aGk="⟩,
    told ⟨dropChunk, codes "a", [], 0, 0, codes "aGk="⟩, told ⟨dropComplete, codes "a", [], 0, 0, []⟩].flatMap
      (Turn.steps 0)

/-- The handler is closed between the end of the transfer and its report. -/
def closedBeforeReport : List (Os × Step) :=
  (told ⟨dropStart, codes "a", codes "f", 0, 0, []⟩).steps 0 ++
    [(calm, .drop 0 true (encodeMessage ⟨dropComplete, codes "a", [], 0, 0, []⟩)), (calm, .close), (calm, .goOn 0),
      (calm, .goOn 0)]

/-- Two bytes are reported as a file of four, and a report is sent on the closed channel. -/
theorem two_bytes_reported_as_four :
    ¬Right (run calmHost freshHandler sameBytesTwice) ∧ ¬Right (run calmHost freshHandler closedBeforeReport) := by
  constructor
  · rintro ⟨whole, -⟩
    have reported : (run calmHost freshHandler sameBytesTwice).reported =
        [(⟨codes "a", codes "f", "/d/f".toList, 4⟩, ⟨codes "f", "/d/f".toList, 4, 4,
          [⟨0, codes "hi"⟩, ⟨0, codes "hi"⟩], [⟨0, codes "hi"⟩, ⟨0, codes "hi"⟩]⟩)] := by decide +kernel
    have there : (run calmHost freshHandler sameBytesTwice).files "/d/f".toList = some (codes "hi") := by
      decide +kernel
    obtain ⟨content, found, length, -⟩ := whole _ (by rw [reported]; exact List.mem_cons_self)
    cases there.symm.trans found
    exact absurd length (by decide)
  · rintro ⟨-, silent⟩
    have sent : (run calmHost freshHandler closedBeforeReport).sentOnClosed = true := by decide +kernel
    rw [sent] at silent
    cases silent

end RemudaRmm.Endpoint.FileDrop
