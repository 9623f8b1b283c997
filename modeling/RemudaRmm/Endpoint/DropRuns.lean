import RemudaRmm.Foundation.ExclusiveFiles
import RemudaRmm.Foundation.Runs
import RemudaRmm.Endpoint.DropHandler

/-! Runs of the handler of file drops: every file that it holds is one that it created, and nobody else touches it. -/
namespace RemudaRmm.Endpoint.FileDrop
open List Function Option
open Foundation JsonText

/-- Who is busy with a file: a transfer that goes on, or a call between two critical sections. -/
inductive Holder where
  | transfer (id : Bytes)
  | call (c : ℕ)
  deriving DecidableEq

def PlainName (name : Bytes) : Prop :=
  name ≠ [] ∧ code '/' ∉ name ∧ code '\\' ∉ name ∧ name.head? ≠ some (code '.')

def InDir (dir p : Text) : Prop := dir ≠ [] ∧ ∃ name, PlainName name ∧ p = joinPath [dir, byteText name]

/-- The bytes that were accepted are those that were counted. -/
structure IncomingTransfer.Tallied (t : IncomingTransfer) : Prop where
  among : t.accepted ⊆ t.writes
  total : sizes t.accepted = t.received

structure Matches (r : ReceivedFile) (t : IncomingTransfer) : Prop where
  path : r.path = t.path
  size : r.size = t.received
  declared : t.size = t.received

namespace Call

def holds : Call → Option (Text × Bytes)
  | starting _ _ path => some (path, [])
  | completing _ t => some (t.path, t.content)
  | _ => none

def Settles : Call → Text → Bytes → Prop
  | reporting _ t, p, content => t.path = p ∧ t.content = content
  | _, _, _ => False

def Fine (receiveDir : Text) : Call → Prop
  | opening _ name dir => dir = receiveDir ∧ dir ≠ [] ∧ PlainName name
  | completing _ t => t.Tallied
  | reporting r t => t.Tallied ∧ Matches r t
  | _ => True

end Call

namespace FileDropHandler
variable {l : List (Bytes × IncomingTransfer)} {id : Bytes} {t : IncomingTransfer} {c : ℕ} {call : Call}

def heldBy (h : FileDropHandler) : Holder → Option (Text × Bytes)
  | .transfer id => (h.lookup id).map fun t => (t.path, t.content)
  | .call c => (h.calls c).holds

def Settled (h : FileDropHandler) (p : Text) (content : Bytes) : Prop :=
  (∃ rt ∈ h.reported, rt.2.path = p ∧ rt.2.content = content) ∨ ∃ c, (h.calls c).Settles p content

def holdings (h : FileDropHandler) : Holdings Holder Text Bytes := ⟨h.files, h.heldBy, h.Settled⟩

/-- What every run keeps, whatever the messages are. -/
structure Inv (before : Text → Option Bytes) (h : FileDropHandler) : Prop where
  sound : h.holdings.Sound before (InDir h.receiveDir)
  keys : (h.transfers.map Prod.fst).Nodup
  fine : ∀ c, (h.calls c).Fine h.receiveDir
  tallied : ∀ id t, h.lookup id = some t → t.Tallied
  matched : ∀ rt ∈ h.reported, rt.2.Tallied ∧ Matches rt.1 rt.2
  ended : h.closed = true → h.transfers = []

theorem lookup_filter (l : List (Bytes × IncomingTransfer)) (id other : Bytes) :
    (l.filter fun entry => entry.1 ≠ id).lookup other = if other = id then none else l.lookup other := by
  induction l with
  | nil => simp
  | cons entry l ih =>
    obtain ⟨key, t⟩ := entry
    by_cases same : key = id
    · rw [filter_cons_of_neg (by simpa using same), ih, lookup_cons]
      split_ifs with goal
      · rfl
      · rw [show (other == key) = false from by simpa [same] using goal]
    · rw [filter_cons_of_pos (by simpa using same), lookup_cons, ih, lookup_cons]
      by_cases found : other = key
      · rw [show (other == key) = true from by simpa using found]
        simp only [found, same, if_false]
      · rw [show (other == key) = false from by simpa using found]

theorem lookup_erase (h : FileDropHandler) (id other : Bytes) :
    (h.erase id).lookup other = if other = id then none else h.lookup other := lookup_filter _ id other

theorem lookup_put (h : FileDropHandler) (id other : Bytes) (t : IncomingTransfer) :
    (h.put id t).lookup other = if other = id then some t else h.lookup other := by
  rw [lookup, put, lookup_cons, lookup_filter]
  by_cases same : other = id
  · rw [show (other == id) = true from by simpa using same, if_pos same, if_pos same]
  · rw [show (other == id) = false from by simpa using same, if_neg same, if_neg same, lookup]

theorem keys_filter (keys : (l.map Prod.fst).Nodup) (id : Bytes) :
    ((l.filter fun entry => entry.1 ≠ id).map Prod.fst).Nodup :=
  keys.sublist (filter_sublist.map Prod.fst)

variable {h : FileDropHandler}

theorem keys_put (keys : (h.transfers.map Prod.fst).Nodup) (id : Bytes) (t : IncomingTransfer) :
    ((h.put id t).transfers.map Prod.fst).Nodup := by
  rw [put, map_cons, nodup_cons]
  refine ⟨?_, keys_filter keys id⟩
  intro member
  obtain ⟨entry, listed, same⟩ := List.mem_map.mp member
  exact absurd same (by simpa using (mem_filter.mp listed).2)

theorem lookup_of_mem (keys : (l.map Prod.fst).Nodup) (member : (id, t) ∈ l) : l.lookup id = some t := by
  induction l with
  | nil => cases member
  | cons entry l ih =>
    obtain ⟨key, s⟩ := entry
    rw [map_cons, nodup_cons] at keys
    rcases mem_cons.mp member with same | later
    · cases same
      rw [lookup_cons_self]
    · have other : id ≠ key := by
        rintro rfl
        exact keys.1 (List.mem_map.mpr ⟨_, later, rfl⟩)
      rw [lookup_cons, show (id == key) = false from by simpa using other]
      exact ih keys.2 later

theorem held_of {a : Holder} {x : Option (Text × Bytes)} (own : h.heldBy a = x) : h.holdings.held a = x := own

theorem calls_goesTo (h : FileDropHandler) (c d : ℕ) (call : Call) :
    (h.goesTo c call).calls d = if d = c then call else h.calls d := update_apply ..

theorem calls_goesTo_self (h : FileDropHandler) (c : ℕ) (call : Call) : (h.goesTo c call).calls c = call :=
  update_self ..

theorem heldBy_goesTo (h : FileDropHandler) (c : ℕ) (call : Call) (a : Holder) :
    (h.goesTo c call).heldBy a = if a = .call c then call.holds else h.heldBy a := by
  cases a with
  | transfer id => rw [if_neg (by simp)]; rfl
  | call d =>
    simp only [heldBy, calls_goesTo, Holder.call.injEq]
    split_ifs <;> rfl

theorem heldBy_put (h : FileDropHandler) (id : Bytes) (t : IncomingTransfer) (a : Holder) :
    (h.put id t).heldBy a = if a = .transfer id then some (t.path, t.content) else h.heldBy a := by
  cases a with
  | transfer other =>
    simp only [heldBy, lookup_put, Holder.transfer.injEq]
    split_ifs <;> rfl
  | call d => rw [if_neg (by simp)]; rfl

theorem heldBy_erase (h : FileDropHandler) (id : Bytes) (a : Holder) :
    (h.erase id).heldBy a = if a = .transfer id then none else h.heldBy a := by
  cases a with
  | transfer other =>
    simp only [heldBy, lookup_erase, Holder.transfer.injEq]
    split_ifs <;> rfl
  | call d => rw [if_neg (by simp)]; rfl

theorem settled_goesTo {p : Text} {content : Bytes}
    (settled : (h.goesTo c call).Settled p content) : h.Settled p content ∨ call.Settles p content := by
  rcases settled with reported | ⟨d, done⟩
  · exact .inl (.inl reported)
  · rw [calls_goesTo] at done
    split_ifs at done
    · exact .inr done
    · exact .inl (.inr ⟨d, done⟩)

theorem fine_goesTo (fine : ∀ c, (h.calls c).Fine h.receiveDir) (next : call.Fine h.receiveDir)
    (d : ℕ) : ((h.goesTo c call).calls d).Fine h.receiveDir := by
  rw [calls_goesTo]
  split_ifs
  · exact next
  · exact fine d

variable {before : Text → Option Bytes} {h : FileDropHandler}

theorem Inv.goesTo (inv : h.Inv before) (c : ℕ) (empty : call.holds = none)
    (unsettled : ∀ p content, ¬call.Settles p content) (fine : call.Fine h.receiveDir) :
    (h.goesTo c call).Inv before where
  sound := by
    refine (inv.sound.leave (a := .call c)).of_eq rfl ?_ ?_ fun _ there => there
    · intro a
      change (h.goesTo c call).heldBy a = update h.heldBy (.call c) none a
      rw [heldBy_goesTo, update_apply, empty]
    · intro p content settled
      exact (settled_goesTo settled).resolve_right (unsettled p content)
  keys := inv.keys
  fine := fine_goesTo inv.fine fine
  tallied := inv.tallied
  matched := inv.matched
  ended := inv.ended

theorem Inv.returns (inv : h.Inv before) (c : ℕ) (error : Option DropError) : (h.returns c error).Inv before :=
  inv.goesTo c rfl (fun _ _ => not_false) trivial

theorem Inv.removeFile (inv : h.Inv before) (os : Os) {p : Text} {content : Bytes}
    (own : (h.calls c).holds = some (p, content)) (error : Option DropError) :
    ((h.removeFile os p).returns c error).Inv before := by
  unfold FileDropHandler.removeFile
  split_ifs
  · refine ⟨?_, inv.keys, ?_, inv.tallied, inv.matched, inv.ended⟩
    · have held : h.holdings.held (.call c) = some (p, content) := own
      refine (inv.sound.remove held).of_eq rfl ?_ ?_ fun _ there => there
      · intro a
        change FileDropHandler.heldBy _ a = update h.heldBy (.call c) none a
        rw [FileDropHandler.returns, heldBy_goesTo, update_apply]
        rfl
      · intro q x settled
        exact (settled_goesTo settled).resolve_right not_false
    · exact fine_goesTo (h := { h with files := _ }) inv.fine trivial
  · exact inv.returns c error

theorem Inv.ensured (inv : h.Inv before) {host : Host} {os : Os} {next : FileDropHandler}
    (made : ensureReceiveDir host os h = some next) :
    next.Inv before ∧ next.receiveDir ≠ [] ∧ next = { h with receiveDir := next.receiveDir } := by
  unfold ensureReceiveDir at made
  split_ifs at made with fails there
  · cases made
    exact ⟨inv, there, rfl⟩
  · cases made
    have none_yet : h.receiveDir = [] := not_not.mp there
    have filled : mkdirTemp host os ≠ [] := by simp [mkdirTemp]
    refine ⟨⟨?_, inv.keys, ?_, inv.tallied, inv.matched, inv.ended⟩, filled, rfl⟩
    · exact inv.sound.of_eq rfl (fun _ => rfl) (fun _ _ => id) fun p inside => absurd none_yet inside.1
    · intro c
      have fine := inv.fine c
      dsimp only
      cases call : h.calls c with
      | opening message name dir =>
        rw [call] at fine
        exact absurd (fine.1.trans none_yet) fine.2.1
      | returned error | starting message name path => trivial
      | completing id t | reporting r t =>
        rw [call] at fine
        exact fine

theorem Inv.created (inv : h.Inv before) (c : ℕ) (message : Message) (safeName : Bytes) {path : Text}
    (free : h.files path = none) (there : InDir h.receiveDir path) :
    ((h.createFile path).goesTo c (.starting message safeName path)).Inv before := by
  refine ⟨?_, inv.keys, ?_, inv.tallied, inv.matched, inv.ended⟩
  · refine (inv.sound.create (a := .call c) (c := []) free there).of_eq rfl ?_ ?_ fun _ inside => inside
    · intro a
      change FileDropHandler.heldBy _ a = update h.heldBy (.call c) (some (path, [])) a
      rw [heldBy_goesTo, update_apply]
      rfl
    · intro q x settled
      exact (settled_goesTo settled).resolve_right not_false
  · exact fine_goesTo (h := h.createFile path) inv.fine trivial

theorem Inv.registered (inv : h.Inv before) {path : Text} {message : Message} {safeName : Bytes}
    (own : h.calls c = .starting message safeName path) (opened : h.closed = false) :
    ((h.put message.transferID ⟨safeName, path, message.size, 0, [], []⟩).returns c none).Inv before := by
  have held : h.heldBy (.call c) = some (path, []) := by rw [heldBy, own, Call.holds]
  refine ⟨?_, keys_put inv.keys _ _, ?_, ?_, inv.matched, ?_⟩
  · refine (inv.sound.pass (a := .call c) (b := .transfer message.transferID)).of_eq rfl ?_ ?_ fun _ inside => inside
    · intro a
      change FileDropHandler.heldBy _ a = update (update h.heldBy (.call c) none) _
        (h.heldBy (.call c)) a
      rw [FileDropHandler.returns, heldBy_goesTo, heldBy_put, update_apply, update_apply, held]
      by_cases same : a = .call c
      · rw [if_pos same, if_neg (by rw [same]; simp), if_pos same]
        rfl
      · rw [if_neg same, if_neg same]
        rfl
    · intro q x settled
      exact (settled_goesTo settled).resolve_right not_false
  · exact fine_goesTo (h := h.put _ _) inv.fine trivial
  · intro other t found
    change (h.put _ _).lookup other = some t at found
    rw [lookup_put] at found
    split_ifs at found
    · cases found
      exact ⟨List.Subset.refl [], rfl⟩
    · exact inv.tallied other t found
  · intro closed
    change h.closed = true at closed
    rw [opened] at closed
    cases closed

theorem Inv.rewritten (inv : h.Inv before) (found : h.lookup id = some t)
    (w : Write UInt8) (t' : IncomingTransfer) (path : t'.path = t.path) (writes : t'.writes = w :: t.writes)
    (tallied : t'.Tallied) : ((h.writeFileAt t.path w).put id t').Inv before := by
  have own : h.heldBy (.transfer id) = some (t.path, t.content) := by
    rw [heldBy, found]
    rfl
  have content : t'.content = writeAt 0 w.start w.data t.content := by
    rw [IncomingTransfer.content, writes, written, IncomingTransfer.content]
  have there : h.files t.path = some t.content := (inv.sound.kept _ _ _ (held_of own)).1
  refine ⟨?_, keys_put inv.keys _ _, inv.fine, ?_, inv.matched, ?_⟩
  · refine (inv.sound.rewrite (d := t'.content) (held_of own)).of_eq ?_ ?_ (fun _ _ done => done) fun _ inside => inside
    · change update h.files t.path _ = update h.files t.path _
      rw [there, content]
      rfl
    · intro a
      change FileDropHandler.heldBy _ a = update h.heldBy (.transfer id) _ a
      rw [heldBy_put, update_apply, path]
      rfl
  · intro other s at_other
    rw [lookup_put] at at_other
    split_ifs at at_other
    · obtain rfl := some.inj at_other
      exact tallied
    · exact inv.tallied other s at_other
  · intro closed
    have none : h.transfers = [] := inv.ended closed
    rw [lookup, none] at found
    cases found

theorem Inv.writeChunk (inv : h.Inv before) (os : Os) (c : ℕ) (found : h.lookup id = some t) (w : Write UInt8) :
    (h.writeChunk os c id t w).Inv before := by
  have tallied := inv.tallied id t found
  unfold FileDropHandler.writeChunk
  cases os.fails with
  | none =>
    refine (inv.rewritten found w ⟨t.name, t.path, t.size, t.received + w.data.length, w :: t.writes, w :: t.accepted⟩
      rfl rfl ⟨?_, ?_⟩).returns c none
    · exact cons_subset_cons w tallied.among
    · have total := tallied.total
      simp only [sizes, map_cons, sum_cons] at total ⊢
      omega
  | some count =>
    let torn : Write UInt8 := ⟨w.start, w.data.take count⟩
    refine (inv.rewritten found torn ⟨t.name, t.path, t.size, t.received, torn :: t.writes, t.accepted⟩
      rfl rfl ⟨?_, tallied.total⟩).returns c _
    exact fun x member => mem_cons_of_mem _ (tallied.among member)

theorem Inv.taken (inv : h.Inv before) (c : ℕ) (found : h.lookup id = some t) :
    ((h.erase id).goesTo c (.completing id t)).Inv before := by
  have own : h.heldBy (.transfer id) = some (t.path, t.content) := by
    rw [heldBy, found]
    rfl
  refine ⟨?_, keys_filter inv.keys id, ?_, ?_, inv.matched, ?_⟩
  · refine (inv.sound.pass (a := .transfer id) (b := .call c)).of_eq rfl ?_ ?_ fun _ inside => inside
    · intro a
      change FileDropHandler.heldBy _ a = update (update h.heldBy (.transfer id) none) _
        (h.heldBy (.transfer id)) a
      rw [heldBy_goesTo, heldBy_erase, update_apply, update_apply, own]
      rfl
    · intro q x settled
      exact (settled_goesTo settled).resolve_right not_false
  · exact fine_goesTo (h := h.erase id) inv.fine (inv.tallied id t found)
  · intro other s at_other
    change (h.erase id).lookup other = some s at at_other
    rw [lookup_erase] at at_other
    split_ifs at at_other
    exact inv.tallied other s at_other
  · intro closed
    have none : h.transfers = [] := inv.ended closed
    rw [lookup, none] at found
    cases found

theorem Inv.concluded (inv : h.Inv before) (own : h.calls c = .completing id t) (whole : (t.received : ℤ) = t.size) :
    (h.goesTo c (.reporting ⟨id, t.name, t.path, t.size⟩ t)).Inv before := by
  have held : h.heldBy (.call c) = some (t.path, t.content) := by rw [heldBy, own, Call.holds]
  have tallied : t.Tallied := by
    have fine := inv.fine c
    rwa [own] at fine
  refine ⟨?_, inv.keys, ?_, inv.tallied, inv.matched, inv.ended⟩
  · refine (inv.sound.settle (held_of held)).of_eq rfl ?_ ?_ fun _ inside => inside
    · intro a
      change FileDropHandler.heldBy _ a = update h.heldBy (.call c) none a
      rw [heldBy_goesTo, update_apply]
      rfl
    · intro q x settled
      rcases settled_goesTo settled with already | ⟨rfl, rfl⟩
      · exact .inl already
      · exact .inr ⟨rfl, rfl⟩
  · exact fine_goesTo inv.fine ⟨tallied, rfl, whole.symm, whole.symm⟩

theorem Inv.report (inv : h.Inv before) {r : ReceivedFile} (own : h.calls c = .reporting r t) :
    (h.report c r t).Inv before := by
  have back := inv.returns c none
  have fine : t.Tallied ∧ Matches r t := by
    have fine := inv.fine c
    rwa [own] at fine
  refine ⟨?_, back.keys, back.fine, back.tallied, ?_, back.ended⟩
  · have held : h.heldBy (.call c) = none := by
      rw [heldBy, own]
      rfl
    refine inv.sound.of_eq rfl ?_ ?_ fun _ inside => inside
    · intro a
      change (h.goesTo c (.returned none)).heldBy a = h.heldBy a
      rw [heldBy_goesTo]
      split_ifs with same
      · rw [same, held]
        rfl
      · rfl
    · rintro q x (⟨rt, member, same⟩ | settled)
      · rcases mem_cons.mp member with rfl | earlier
        · exact .inr ⟨c, by rw [own]; exact same⟩
        · exact .inl ⟨rt, earlier, same⟩
      · have before_return : (h.goesTo c (.returned none)).Settled q x := .inr settled
        exact (settled_goesTo before_return).resolve_right not_false
  · intro rt member
    rcases mem_cons.mp member with rfl | earlier
    · exact fine
    · exact inv.matched rt earlier

theorem plainName_of_safe {name safeName : Bytes} (safe : safeNameOf name = some safeName) : PlainName safeName := by
  unfold safeNameOf at safe
  simp only at safe
  split_ifs at safe with special odd
  cases safe
  rw [not_or, List.any_eq_true] at odd
  have filled : base name ≠ [] := by
    unfold base
    split
    · exact cons_ne_nil _ _
    · dsimp only
      split
      · exact cons_ne_nil _ _
      · assumption
  refine ⟨filled, ?_, ?_, odd.2⟩ <;> exact fun member => odd.1 ⟨_, member, by decide⟩

inductive Taken (host : Host) (os : Os) (h : FileDropHandler) (c : ℕ) (isString : Bool) (payload : Bytes) :
    FileDropHandler → Prop
  | fails (error : Option DropError) : Taken host os h c isString payload (h.returns c error)
  | opens {message : Message} {safeName : Bytes} {ensured : FileDropHandler} (text : isString = true)
      (decoded : decodeMessage payload = some message) (safe : safeNameOf message.name = some safeName)
      (made : ensureReceiveDir host os h = some ensured) :
      Taken host os h c isString payload (ensured.goesTo c (.opening message safeName ensured.receiveDir))
  | writes {message : Message} {t : IncomingTransfer} (text : isString = true)
      (decoded : decodeMessage payload = some message) (found : h.lookup message.transferID = some t)
      (w : Write UInt8) : Taken host os h c isString payload (h.writeChunk os c message.transferID t w)
  | completes {message : Message} {t : IncomingTransfer} (text : isString = true)
      (decoded : decodeMessage payload = some message) (ends : message.type = dropComplete)
      (found : h.lookup message.transferID = some t) :
      Taken host os h c isString payload ((h.erase message.transferID).goesTo c (.completing message.transferID t))

inductive GoneOn (os : Os) (h : FileDropHandler) (c : ℕ) : FileDropHandler → Prop
  | rests {error : Option DropError} (own : h.calls c = .returned error) : GoneOn os h c h
  | fails (error : Option DropError) : GoneOn os h c (h.returns c error)
  | removes {path : Text} {content : Bytes} (own : (h.calls c).holds = some (path, content))
      (error : Option DropError) : GoneOn os h c ((h.removeFile os path).returns c error)
  | creates {message : Message} {safeName : Bytes} {dir : Text} (own : h.calls c = .opening message safeName dir)
      (free : h.files (joinPath [dir, byteText safeName]) = none) :
      GoneOn os h c ((h.createFile (joinPath [dir, byteText safeName])).goesTo c
        (.starting message safeName (joinPath [dir, byteText safeName])))
  | registers {message : Message} {safeName : Bytes} {path : Text} (own : h.calls c = .starting message safeName path)
      (opened : h.closed = false) :
      GoneOn os h c ((h.put message.transferID ⟨safeName, path, message.size, 0, [], []⟩).returns c none)
  | concludes {id : Bytes} {t : IncomingTransfer} (own : h.calls c = .completing id t)
      (whole : (t.received : ℤ) = t.size) : GoneOn os h c (h.goesTo c (.reporting ⟨id, t.name, t.path, t.size⟩ t))
  | reports {r : ReceivedFile} {t : IncomingTransfer} (own : h.calls c = .reporting r t) :
      GoneOn os h c (h.report c r t)

theorem taken_handleDrop (host : Host) (os : Os) (h : FileDropHandler) (c : ℕ) (isString : Bool) (payload : Bytes) :
    Taken host os h c isString payload (h.handleDrop host os c isString payload) := by
  unfold handleDrop
  split
  · exact .fails _
  · next text =>
      split
      · exact .fails _
      · next message decoded =>
          have isText := not_not.mp text
          split_ifs with _ _ complete
          · unfold handleStart
            split
            · exact .fails _
            · split
              · exact .fails _
              · split
                · exact .fails _
                · next safe =>
                    split
                    · exact .fails _
                    · split
                      · exact .fails _
                      · next made => exact .opens isText decoded safe made
          · unfold handleChunk
            split
            · exact .fails _
            · split
              · exact .fails _
              · split
                · exact .fails _
                · split
                  · exact .fails _
                  · split
                    · exact .fails _
                    · next found =>
                        split_ifs
                        · exact .fails _
                        · exact .fails _
                        · exact .writes isText decoded found _
          · unfold handleComplete
            split
            · exact .fails _
            · split
              · exact .fails _
              · next found => exact .completes isText decoded complete found
          · exact .fails _

theorem goneOn_goOn (host : Host) (os : Os) (h : FileDropHandler) (c : ℕ) : GoneOn os h c (h.goOn host os c) := by
  unfold goOn
  cases own : h.calls c with
  | returned error => exact .rests own
  | opening message safeName dir =>
    dsimp only
    unfold openFile
    dsimp only
    split
    · split
      · exact .fails _
      · split
        · exact .fails _
        · next accepted =>
            rw [not_or, not_not, not_not] at accepted
            exact .creates own accepted.2
    · exact .fails _
  | starting message safeName path =>
    have held : (h.calls c).holds = some (path, []) := by rw [own, Call.holds]
    dsimp only
    unfold register
    split_ifs with closed
    · exact .removes held _
    · exact .removes held _
    · exact .removes held _
    · exact .registers own (Bool.eq_false_iff.mpr closed)
  | completing id t =>
    dsimp only
    unfold closeFile
    split
    · exact .fails _
    · split
      · exact .removes (by rw [own, Call.holds]) _
      · next whole => exact .concludes own (not_not.mp whole)
  | reporting r t => exact .reports own

theorem Inv.handleDrop (inv : h.Inv before) (host : Host) (os : Os) (c : ℕ) (isString : Bool) (payload : Bytes) :
    (h.handleDrop host os c isString payload).Inv before := by
  have taken := taken_handleDrop host os h c isString payload
  generalize h.handleDrop host os c isString payload = next at taken ⊢
  cases taken with
  | fails error => exact inv.returns c error
  | opens _ _ safe made =>
    obtain ⟨kept, filled, -⟩ := inv.ensured made
    exact kept.goesTo c rfl (fun _ _ => not_false) ⟨rfl, filled, plainName_of_safe safe⟩
  | writes _ _ found w => exact inv.writeChunk os c found w
  | completes _ _ _ found => exact inv.taken c found

theorem Inv.goOn (inv : h.Inv before) (host : Host) (os : Os) (c : ℕ) : (h.goOn host os c).Inv before := by
  have fine := inv.fine c
  have gone := goneOn_goOn host os h c
  generalize h.goOn host os c = next at gone ⊢
  cases gone with
  | rests => exact inv
  | fails error => exact inv.returns c error
  | removes own error => exact inv.removeFile os own error
  | creates own free =>
    rw [own] at fine
    obtain ⟨rfl, filled, plain⟩ := fine
    exact inv.created c _ _ free ⟨filled, _, plain, rfl⟩
  | registers own opened => exact inv.registered own opened
  | concludes own whole => exact inv.concluded own whole
  | reports own => exact inv.report own

theorem removeAll_sound (os : Os) {place : Text → Prop} {g : FileDropHandler}
    {held : Holdings Holder Text Bytes} (keys : (l.map Prod.fst).Nodup) (sound : held.Sound before place)
    (own : ∀ e ∈ l, held.held (.transfer e.1) = some (e.2.path, e.2.content)) (files : held.files = g.files) :
    ∃ left : Holdings Holder Text Bytes, left.Sound before place ∧
      left.files = (l.foldl (fun h e => if e.2.path ≠ [] then h.removeFile os e.2.path else h) g).files ∧
      left.settled = held.settled ∧ ∀ a, left.held a = if ∃ e ∈ l, a = .transfer e.1 then none else held.held a := by
  induction l generalizing g held with
  | nil => exact ⟨held, sound, files, rfl, fun a => by simp⟩
  | cons e l ih =>
    rw [map_cons, nodup_cons] at keys
    have mine := own e mem_cons_self
    have others : ∀ x ∈ l, x.1 ≠ e.1 := fun x member same => keys.1 (List.mem_map.mpr ⟨x, member, same⟩)
    have step : ∃ next : Holdings Holder Text Bytes, next.Sound before place ∧
        next.files = (if e.2.path ≠ [] then g.removeFile os e.2.path else g).files ∧ next.settled = held.settled ∧
        next.held = update held.held (.transfer e.1) none := by
      by_cases removed : e.2.path ≠ [] ∧ os.removes e.2.path = true
      · refine ⟨held.remove (.transfer e.1) e.2.path, sound.remove mine, ?_, rfl, rfl⟩
        rw [if_pos removed.1, removeFile, if_pos removed.2, Holdings.remove, files]
      · refine ⟨held.leave (.transfer e.1), sound.leave, ?_, rfl, rfl⟩
        rw [Holdings.leave, files]
        split_ifs with some_path
        · rw [removeFile, if_neg fun can => removed ⟨some_path, can⟩]
        · rfl
    obtain ⟨next, kept, nextFiles, settled, nextHeld⟩ := step
    have stillOwn : ∀ x ∈ l, next.held (.transfer x.1) = some (x.2.path, x.2.content) := by
      intro x member
      rw [nextHeld, update_of_ne (by simpa using others x member)]
      exact own x (mem_cons_of_mem e member)
    obtain ⟨left, leftSound, leftFiles, leftSettled, leftHeld⟩ := ih keys.2 kept stillOwn nextFiles
    refine ⟨left, leftSound, leftFiles, leftSettled.trans settled, fun a => ?_⟩
    rw [leftHeld, nextHeld, update_apply]
    simp only [exists_mem_cons_iff]
    by_cases first : a = .transfer e.1
    · simp [first]
    · simp only [first, if_false, false_or]

theorem Inv.close (inv : h.Inv before) (os : Os) : (h.close os).Inv before := by
  unfold FileDropHandler.close
  split
  · exact inv
  · have own : ∀ e ∈ h.transfers, h.holdings.held (.transfer e.1) = some (e.2.path, e.2.content) := by
      intro e member
      have found : h.lookup e.1 = some e.2 := lookup_of_mem inv.keys member
      exact held_of (by rw [heldBy, found]; rfl)
    obtain ⟨left, sound, files, settled, held⟩ := removeAll_sound (g := h) os inv.keys inv.sound own rfl
    have only : ∀ (l : List (Bytes × IncomingTransfer)) (g : FileDropHandler),
        l.foldl (fun h e => if e.2.path ≠ [] then h.removeFile os e.2.path else h) g =
          { g with
            files := (l.foldl (fun h e => if e.2.path ≠ [] then h.removeFile os e.2.path else h) g).files } := by
      intro l
      induction l with
      | nil => exact fun g => rfl
      | cons e l ih =>
        intro g
        rw [foldl_cons, ih]
        unfold FileDropHandler.removeFile
        split_ifs <;> rfl
    rw [only]
    have nothing : ∀ (id : Bytes) (t : IncomingTransfer), ([] : List (Bytes × IncomingTransfer)).lookup id = some t →
        t.Tallied := by
      intro id t found
      cases found
    refine ⟨?_, nodup_nil, inv.fine, nothing, inv.matched, fun _ => rfl⟩
    refine sound.of_eq files.symm ?_ ?_ fun _ inside => inside
    · intro a
      rw [held]
      cases a with
      | call c => rw [if_neg (by simp)]; rfl
      | transfer id =>
        change (none : Option (Text × Bytes)) = _
        split_ifs with listed
        · rfl
        · have absent : h.lookup id = none := by
            rw [lookup, lookup_eq_none_iff]
            intro e member
            simpa using fun same => listed ⟨e, member, by rw [same]⟩
          change none = h.heldBy (.transfer id)
          rw [heldBy, absent]
          rfl
    · intro p content done
      rw [settled]
      exact done

theorem Inv.step (inv : h.Inv before) (host : Host) (e : Os × Step) : (FileDrop.step host h e).Inv before := by
  obtain ⟨os, event⟩ := e
  cases event with
  | drop c isString payload =>
    rw [FileDrop.step]
    split_ifs
    · exact inv.handleDrop host os c isString payload
    · exact inv
  | goOn c => exact inv.goOn host os c
  | close => exact inv.close os
  | receiveFile => exact ⟨inv.sound, inv.keys, inv.fine, inv.tallied, inv.matched, inv.ended⟩

theorem inv_new (receiveDir : Text) (files : Text → Option Bytes) :
    (newFileDropHandler receiveDir files).Inv files where
  sound := by
    refine Holdings.Sound.start rfl (fun a => ?_) fun p content settled => ?_
    · cases a <;> rfl
    · rcases settled with ⟨rt, none, -⟩ | ⟨c, none⟩
      · cases none
      · exact none
  keys := nodup_nil
  fine _ := trivial
  tallied id t found := by cases found
  matched rt none := by cases none
  ended _ := rfl

theorem Inv.run (inv : h.Inv before) (host : Host) (steps : List (Os × Step)) :
    (FileDrop.run host h steps).Inv before := by
  induction steps generalizing h with
  | nil => exact inv
  | cons e steps ih => exact ih (inv.step host e)

end FileDropHandler

end RemudaRmm.Endpoint.FileDrop
