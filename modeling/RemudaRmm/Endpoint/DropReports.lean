import RemudaRmm.Endpoint.DropRuns

/-! What the handler of file drops reports: when the file of a report is whole, and when nothing is sent on the channel
after it was closed. -/
namespace RemudaRmm.Endpoint.FileDrop
open Function Option FileDropHandler
open Foundation JsonText
variable {h : FileDropHandler} {before : Text → Option Bytes} {r : ReceivedFile} {t : IncomingTransfer}

/-- The accepted chunks do not overlap, and nothing was written past the size. -/
def Tidy (t : IncomingTransfer) : Prop := Apart t.accepted ∧ Inside t.writes t.size.toNat

def Call.Pending : Call → Prop
  | completing _ t => (t.received : ℤ) = t.size
  | reporting _ _ => True
  | _ => False

def Call.Tidied : Call → Prop
  | completing _ t => (t.received : ℤ) = t.size → Tidy t
  | reporting _ t => Tidy t
  | _ => True

def Completes (h : FileDropHandler) (isString : Bool) (payload : Bytes) (t : IncomingTransfer) : Prop :=
  isString = true ∧
    ∃ message, decodeMessage payload = some message ∧ message.type = dropComplete ∧ h.lookup message.transferID = some t

/-- A transfer of which all bytes are counted is tidy where it ends, and nobody is about to send where the handler is
closed. -/
def Clean (h : FileDropHandler) : Os × Step → Prop
  | (_, .drop _ isString payload) => ∀ t, Completes h isString payload t → (t.received : ℤ) = t.size → Tidy t
  | (_, .close) => ∀ c, ¬(h.calls c).Pending
  | _ => True

/-- The file has as many bytes as the report says, and each is one that a chunk of the transfer put there. -/
def Whole (h : FileDropHandler) (r : ReceivedFile) (t : IncomingTransfer) : Prop :=
  ∃ content, h.files r.path = some content ∧ (content.length : ℤ) = r.size ∧
    ∀ i < content.length, ∃ w ∈ t.writes, i ∈ w.places ∧ content[i]? = w.data[i - w.start]?

def Right (h : FileDropHandler) : Prop := (∀ rt ∈ h.reported, Whole h rt.1 rt.2) ∧ h.sentOnClosed = false

structure Kept (h : FileDropHandler) : Prop where
  quiet : h.closed = true → ∀ c, ¬(h.calls c).Pending
  tidied : ∀ c, (h.calls c).Tidied
  reports : ∀ rt ∈ h.reported, Tidy rt.2
  silent : h.sentOnClosed = false

structure Moves (h next : FileDropHandler) (c : ℕ) (call : Call) : Prop where
  calls : next.calls = update h.calls c call
  closed : next.closed = h.closed
  reported : next.reported = h.reported
  sent : next.sentOnClosed = h.sentOnClosed

theorem moves_goesTo (h : FileDropHandler) (c : ℕ) (call : Call) : Moves h (h.goesTo c call) c call :=
  ⟨rfl, rfl, rfl, rfl⟩

theorem moves_returns (h : FileDropHandler) (c : ℕ) (error : Option DropError) :
    Moves h (h.returns c error) c (.returned error) := moves_goesTo h c _

theorem moves_removeFile (h : FileDropHandler) (os : Os) (path : Text) (c : ℕ) (error : Option DropError) :
    Moves h ((h.removeFile os path).returns c error) c (.returned error) := by
  unfold FileDropHandler.removeFile
  split_ifs
  · exact ⟨rfl, rfl, rfl, rfl⟩
  · exact moves_returns h c error

theorem Moves.kept {next : FileDropHandler} {c : ℕ} {call : Call} (moves : Moves h next c call) (kept : Kept h)
    (quiet : h.closed = true → ¬call.Pending) (tidied : call.Tidied) : Kept next where
  quiet closed d := by
    rw [moves.closed] at closed
    rw [moves.calls, update_apply]
    split_ifs
    · exact quiet closed
    · exact kept.quiet closed d
  tidied d := by
    rw [moves.calls, update_apply]
    split_ifs
    · exact tidied
    · exact kept.tidied d
  reports := moves.reported ▸ kept.reports
  silent := moves.sent ▸ kept.silent

theorem writeChunk_moves (os : Os) (h : FileDropHandler) (c : ℕ) (id : Bytes) (t : IncomingTransfer)
    (w : Write UInt8) : ∃ error, Moves h (h.writeChunk os c id t w) c (.returned error) := by
  unfold writeChunk
  split <;> exact ⟨_, rfl, rfl, rfl, rfl⟩

theorem handleDrop_moves (host : Host) (os : Os) (h : FileDropHandler) (c : ℕ) (isString : Bool) (payload : Bytes) :
    ∃ call, Moves h (h.handleDrop host os c isString payload) c call ∧
      ((¬call.Pending ∧ call.Tidied) ∨ ∃ id t, call = .completing id t ∧ h.lookup id = some t ∧
        Completes h isString payload t) := by
  have taken := taken_handleDrop host os h c isString payload
  generalize h.handleDrop host os c isString payload = next at taken ⊢
  cases taken with
  | fails error => exact ⟨_, moves_returns h c error, .inl ⟨not_false, trivial⟩⟩
  | opens _ _ _ made =>
    unfold ensureReceiveDir at made
    split_ifs at made
    · cases made
      exact ⟨_, moves_goesTo h c _, .inl ⟨not_false, trivial⟩⟩
    · cases made
      exact ⟨_, ⟨rfl, rfl, rfl, rfl⟩, .inl ⟨not_false, trivial⟩⟩
  | writes _ _ _ w =>
    obtain ⟨error, moves⟩ := writeChunk_moves os h c _ _ w
    exact ⟨_, moves, .inl ⟨not_false, trivial⟩⟩
  | completes text decoded ends found =>
    exact ⟨_, ⟨rfl, rfl, rfl, rfl⟩, .inr ⟨_, _, rfl, found, text, _, decoded, ends, found⟩⟩

theorem Kept.goOn (kept : Kept h) (host : Host) (os : Os) (c : ℕ) : Kept (h.goOn host os c) := by
  have tidied := kept.tidied c
  have quiet := fun closed => kept.quiet closed c
  have gone := goneOn_goOn host os h c
  generalize h.goOn host os c = next at gone ⊢
  cases gone with
  | rests => exact kept
  | fails error => exact (moves_returns h c error).kept kept (fun _ => not_false) trivial
  | removes _ error => exact (moves_removeFile h os _ c error).kept kept (fun _ => not_false) trivial
  | @creates message safeName dir =>
    have moves : Moves h ((h.createFile (joinPath [dir, byteText safeName])).goesTo c
        (.starting message safeName (joinPath [dir, byteText safeName]))) c _ := ⟨rfl, rfl, rfl, rfl⟩
    exact moves.kept kept (fun _ => not_false) trivial
  | @registers message safeName path =>
    have moves : Moves h ((h.put message.transferID ⟨safeName, path, message.size, 0, [], []⟩).returns c none) c _ :=
      ⟨rfl, rfl, rfl, rfl⟩
    exact moves.kept kept (fun _ => not_false) trivial
  | concludes own whole =>
    rw [own] at tidied quiet
    exact (moves_goesTo h c _).kept kept (fun closed => absurd whole (quiet closed)) (tidied whole)
  | reports own =>
    rw [own] at tidied quiet
    have back := (moves_returns h c none).kept kept (fun _ => not_false) trivial
    have opened : h.closed = false := Bool.eq_false_iff.mpr fun closed => quiet closed trivial
    refine ⟨back.quiet, back.tidied, ?_, ?_⟩
    · intro rt member
      rcases List.mem_cons.mp member with rfl | earlier
      · exact tidied
      · exact kept.reports rt earlier
    · change (h.sentOnClosed || h.closed) = false
      rw [kept.silent, opened]
      rfl

theorem close_calls (os : Os) (h : FileDropHandler) :
    (h.close os).calls = h.calls ∧ (h.close os).reported = h.reported ∧ (h.close os).sentOnClosed = h.sentOnClosed := by
  unfold close
  split
  · exact ⟨rfl, rfl, rfl⟩
  · have only : ∀ (l : List (Bytes × IncomingTransfer)) (g : FileDropHandler),
        (l.foldl (fun h e => if e.2.path ≠ [] then h.removeFile os e.2.path else h) g).calls = g.calls ∧
          (l.foldl (fun h e => if e.2.path ≠ [] then h.removeFile os e.2.path else h) g).reported = g.reported ∧
          (l.foldl (fun h e => if e.2.path ≠ [] then h.removeFile os e.2.path else h) g).sentOnClosed =
            g.sentOnClosed := by
      intro l
      induction l with
      | nil => exact fun g => ⟨rfl, rfl, rfl⟩
      | cons e l ih =>
        intro g
        rw [List.foldl_cons]
        obtain ⟨calls, reported, sent⟩ := ih (if e.2.path ≠ [] then g.removeFile os e.2.path else g)
        rw [calls, reported, sent]
        unfold FileDropHandler.removeFile
        split_ifs <;> exact ⟨rfl, rfl, rfl⟩
    exact only h.transfers h

theorem Kept.step (inv : h.Inv before) (kept : Kept h)
    (host : Host) (e : Os × Step) (clean : Clean h e) : Kept (FileDrop.step host h e) := by
  obtain ⟨os, event⟩ := e
  cases event with
  | drop c isString payload =>
    rw [FileDrop.step]
    split_ifs
    · obtain ⟨call, moves, plain | ⟨id, t, rfl, found, completes⟩⟩ := handleDrop_moves host os h c isString payload
      · exact moves.kept kept (fun _ => plain.1) plain.2
      · refine moves.kept kept (fun closed => ?_) (clean t completes)
        rw [FileDropHandler.lookup, inv.ended closed] at found
        cases found
    · exact kept
  | goOn c => exact kept.goOn host os c
  | close =>
    obtain ⟨calls, reported, sent⟩ := close_calls os h
    rw [FileDrop.step]
    exact ⟨fun _ c => calls ▸ clean c, fun c => calls ▸ kept.tidied c, reported ▸ kept.reports, sent ▸ kept.silent⟩
  | receiveFile => exact ⟨kept.quiet, kept.tidied, kept.reports, kept.silent⟩

theorem reported_content (inv : h.Inv before) (member : (r, t) ∈ h.reported) : h.files r.path = some t.content := by
  rw [(inv.matched _ member).2.path]
  exact (inv.sound.done t.path t.content (.inl ⟨(r, t), member, rfl, rfl⟩)).1

theorem whole_iff_covered (inv : h.Inv before) (member : (r, t) ∈ h.reported) :
    Whole h r t ↔ t.content.length = t.received ∧ ∀ i < t.received, i ∈ covered t.writes := by
  have there := reported_content inv member
  have size := (inv.matched _ member).2.size
  dsimp only at size
  constructor
  · rintro ⟨content, found, length, each⟩
    cases there.symm.trans found
    have same : t.content.length = t.received := by omega
    refine ⟨same, fun i small => ?_⟩
    obtain ⟨w, listed, place, -⟩ := each i (same ▸ small)
    exact mem_covered.mpr ⟨w, listed, place⟩
  · rintro ⟨length, each⟩
    refine ⟨t.content, there, by omega, fun i small => ?_⟩
    exact written_by (each i (length ▸ small))

theorem whole_of_tidy (inv : h.Inv before) (member : (r, t) ∈ h.reported) (tidy : Tidy t) : Whole h r t := by
  obtain ⟨tallied, fits⟩ := inv.matched _ member
  have size : t.size.toNat = t.received := by rw [fits.declared]; rfl
  refine (whole_iff_covered inv member).mpr ?_
  exact fills_of_apart tallied.among tallied.total tidy.1 (size ▸ tidy.2)

theorem whole_iff_tidy (inv : h.Inv before) (member : (r, t) ∈ h.reported) (all : t.accepted = t.writes) :
    Whole h r t ↔ Tidy t := by
  obtain ⟨tallied, fits⟩ := inv.matched _ member
  have size : t.size.toNat = t.received := by rw [fits.declared]; rfl
  rw [whole_iff_covered inv member, Tidy, size, all]
  exact fills_iff (all ▸ tallied.total)

theorem kept_new (receiveDir : Text) (files : Text → Option Bytes) : Kept (newFileDropHandler receiveDir files) where
  quiet closed := by cases closed
  tidied _ := trivial
  reports rt none := by cases none
  silent := rfl

theorem reports_right (host : Host) (receiveDir : Text) (files : Text → Option Bytes) {steps : List (Os × Step)}
    (clean : StepsMeet (step host) Clean (newFileDropHandler receiveDir files) steps) :
    Throughout (step host) Right (newFileDropHandler receiveDir files) steps := by
  have keep : ∀ h e, h.Inv files ∧ Kept h → Clean h e → (step host h e).Inv files ∧ Kept (step host h e) :=
    fun h e both clean => ⟨both.1.step host e, both.2.step both.1 host e clean⟩
  have throughout := throughout_of_invariant keep
    ⟨inv_new receiveDir files, kept_new receiveDir files⟩ clean
  intro pre post split
  obtain ⟨inv, kept⟩ := throughout pre post split
  exact ⟨fun rt member => whole_of_tidy inv member (kept.reports rt member), kept.silent⟩

end RemudaRmm.Endpoint.FileDrop
