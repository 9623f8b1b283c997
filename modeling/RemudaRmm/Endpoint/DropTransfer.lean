import RemudaRmm.Endpoint.DropReports

/-! A file that is sent and received: the messages of `SendFile`, handled among those of other transfers. -/
namespace RemudaRmm.Endpoint.FileDrop
open List Option FileDropHandler FileDropHandler
open Foundation JsonText
variable {host : Host} {c : ℕ} {h : FileDropHandler} {turn : Turn} {id name : Bytes} {os : Os}

structure Turn where
  os : Os
  isString : Bool
  payload : Bytes

/-- One message handled from its arrival to the return of the call. -/
def Turn.steps (c : ℕ) (turn : Turn) : List (Os × Step) :=
  [(turn.os, .drop c turn.isString turn.payload), (turn.os, .goOn c), (turn.os, .goOn c)]

def handled (host : Host) (c : ℕ) (h : FileDropHandler) (turns : List Turn) : FileDropHandler :=
  run host h (turns.flatMap (Turn.steps c))

def Turn.carries (id : Bytes) (turn : Turn) : Bool :=
  turn.isString && decide ((decodeMessage turn.payload).map Message.transferID = some id)

/-- The system does what it is asked. -/
structure Os.Smooth (os : Os) : Prop where
  makesDir : os.makesDir = true
  opens : os.opens = true
  writes : os.fails = none
  closes : os.closes = true

theorem handled_cons (host : Host) (c : ℕ) (h : FileDropHandler) (turn : Turn) (turns : List Turn) :
    handled host c h (turn :: turns) = handled host c (run host h (turn.steps c)) turns := by
  simp only [handled, run, flatMap_cons, foldl_append]

theorem run_turn (idle : (h.calls c).idle = true) :
    run host h (turn.steps c) =
      ((h.handleDrop host turn.os c turn.isString turn.payload).goOn host turn.os c).goOn host turn.os c := by
  simp only [run, Turn.steps, foldl_cons, foldl_nil, step, idle, if_true]

def Call.about : Call → Option Bytes
  | .opening message _ _ => some message.transferID
  | .starting message _ _ => some message.transferID
  | .completing id _ => some id
  | _ => none

def Call.left : Call → ℕ
  | .returned _ => 0
  | .opening .. => 2
  | .starting .. => 1
  | .completing .. => 2
  | .reporting .. => 1

/-- What concerns a transfer is as it was, and the call is about another. -/
structure Aside (h next : FileDropHandler) (c : ℕ) (id : Bytes) (most : ℕ) : Prop where
  lookup : next.lookup id = h.lookup id
  closed : next.closed = h.closed
  about : (next.calls c).about ≠ some id
  left : (next.calls c).left ≤ most

theorem aside_goesTo (h : FileDropHandler) (c : ℕ) {call : Call} {most : ℕ} (about : call.about ≠ some id)
    (left : call.left ≤ most) : Aside h (h.goesTo c call) c id most := by
  refine ⟨rfl, rfl, ?_, ?_⟩ <;> rwa [calls_goesTo_self]

theorem aside_returns (h : FileDropHandler) (c : ℕ) (error : Option DropError) (id : Bytes) (most : ℕ) :
    Aside h (h.returns c error) c id most := aside_goesTo h c (by simp [Call.about]) (Nat.zero_le _)

theorem aside_removeFile (h : FileDropHandler) (os : Os) (path : Text) (c : ℕ) (error : Option DropError) (id : Bytes)
    (most : ℕ) : Aside h ((h.removeFile os path).returns c error) c id most := by
  obtain ⟨-, -, about, left⟩ := aside_returns (h.removeFile os path) c error id most
  unfold FileDropHandler.removeFile at about left ⊢
  split_ifs at about left ⊢ <;> exact ⟨rfl, rfl, about, left⟩

theorem aside_put (h : FileDropHandler) {other : Bytes} (differs : other ≠ id) (t : IncomingTransfer) (c : ℕ)
    (error : Option DropError) (most : ℕ) : Aside h ((h.put other t).returns c error) c id most := by
  obtain ⟨-, -, about, left⟩ := aside_returns (h.put other t) c error id most
  refine ⟨?_, rfl, about, left⟩
  change (h.put other t).lookup id = h.lookup id
  rw [lookup_put, if_neg differs.symm]

theorem writeChunk_aside (os : Os) (h : FileDropHandler) (c : ℕ) {other : Bytes} (differs : other ≠ id)
    (t : IncomingTransfer) (w : Write UInt8) : Aside h (h.writeChunk os c other t w) c id 2 := by
  have put : ∀ (v : Write UInt8) (s : IncomingTransfer) (error : Option DropError),
      Aside h (((h.writeFileAt t.path v).put other s).returns c error) c id 2 := by
    intro v s error
    have moved := aside_put (h.writeFileAt t.path v) differs s c error 2
    exact ⟨moved.lookup, moved.closed, moved.about, moved.left⟩
  unfold writeChunk
  split <;> exact put _ _ _

theorem handleDrop_aside (host : Host) (h : FileDropHandler) (c : ℕ) (other : turn.carries id = false) :
    Aside h (h.handleDrop host turn.os c turn.isString turn.payload) c id 2 := by
  have differs : ∀ message, turn.isString = true → decodeMessage turn.payload = some message →
      message.transferID ≠ id := by
    rintro message text decoded rfl
    simp [Turn.carries, decoded, text] at other
  have taken := taken_handleDrop host turn.os h c turn.isString turn.payload
  generalize h.handleDrop host turn.os c turn.isString turn.payload = next at taken ⊢
  cases taken with
  | fails error => exact aside_returns h c error id 2
  | @opens message safeName ensured text decoded _ made =>
    have same : ensured.lookup id = h.lookup id ∧ ensured.closed = h.closed := by
      unfold ensureReceiveDir at made
      split_ifs at made <;> obtain rfl := some.inj made <;> exact ⟨rfl, rfl⟩
    have about : (Call.opening message safeName ensured.receiveDir).about ≠ some id := by
      simpa [Call.about] using differs message text decoded
    have moved := aside_goesTo ensured c about (Nat.le_refl 2)
    exact ⟨moved.lookup.trans same.1, moved.closed.trans same.2, moved.about, moved.left⟩
  | writes text decoded _ w => exact writeChunk_aside turn.os h c (differs _ text decoded) _ w
  | @completes message t text decoded =>
    have different := differs message text decoded
    have about : (Call.completing message.transferID t).about ≠ some id := by simpa [Call.about] using different
    have moved := aside_goesTo (h.erase message.transferID) c about (Nat.le_refl 2)
    refine ⟨?_, moved.closed, moved.about, moved.left⟩
    rw [moved.lookup, lookup_erase, if_neg different.symm]

theorem goOn_aside (host : Host) (os : Os) (h : FileDropHandler) (other : (h.calls c).about ≠ some id) :
    Aside h (h.goOn host os c) c id ((h.calls c).left - 1) := by
  have gone := goneOn_goOn host os h c
  generalize h.goOn host os c = next at gone ⊢
  cases gone with
  | rests own => exact ⟨rfl, rfl, other, by rw [own]; exact Nat.le_refl 0⟩
  | fails error => exact aside_returns h c error id _
  | removes _ error => exact aside_removeFile h os _ c error id _
  | @creates message safeName dir own =>
    rw [own] at other ⊢
    have about : (Call.starting message safeName (joinPath [dir, byteText safeName])).about ≠ some id := other
    have moved := aside_goesTo (h.createFile (joinPath [dir, byteText safeName])) c about (Nat.le_refl 1)
    exact ⟨moved.lookup, moved.closed, moved.about, moved.left⟩
  | registers own =>
    rw [own] at other
    exact aside_put h (fun same => other (congrArg some same)) _ c none _
  | concludes own =>
    rw [own]
    exact aside_goesTo h c (by simp [Call.about]) (Nat.le_refl 1)
  | reports =>
    have moved := aside_returns h c none id ((h.calls c).left - 1)
    exact ⟨moved.lookup, moved.closed, moved.about, moved.left⟩

/-- The transfer is open, and the call that handles its messages is free. -/
structure Receiving (h : FileDropHandler) (c : ℕ) (id : Bytes) (t : IncomingTransfer) : Prop where
  idle : (h.calls c).idle = true
  opened : h.closed = false
  found : h.lookup id = some t

theorem Call.idle_of_left {call : Call} (none : call.left ≤ 0) : call.idle = true := by
  cases call <;> simp_all [Call.left, Call.idle]

theorem Receiving.other {t : IncomingTransfer} (receiving : Receiving h c id t) (other : turn.carries id = false) :
    Receiving (run host h (turn.steps c)) c id t := by
  rw [run_turn receiving.idle]
  have first := handleDrop_aside host h c other
  have second := goOn_aside host turn.os _ first.about
  have third := goOn_aside host turn.os _ second.about
  have one : _ ≤ 1 := second.left.trans (Nat.sub_le_sub_right first.left 1)
  refine ⟨Call.idle_of_left (third.left.trans (Nat.sub_le_sub_right one 1)), ?_, ?_⟩
  · rw [third.closed, second.closed, first.closed, receiving.opened]
  · rw [third.lookup, second.lookup, first.lookup, receiving.found]

theorem goOn_reported (host : Host) (os : Os) (h : FileDropHandler) (c : ℕ) :
    h.reported ⊆ (h.goOn host os c).reported := by
  have gone := goneOn_goOn host os h c
  generalize h.goOn host os c = next at gone ⊢
  cases gone with
  | removes _ error => exact (moves_removeFile h os _ c error).reported.symm ▸ List.Subset.refl _
  | reports => exact subset_cons_self _ _
  | rests | fails | creates | registers | concludes => exact List.Subset.refl _

theorem step_reported (host : Host) (h : FileDropHandler) (e : Os × Step) : h.reported ⊆ (step host h e).reported := by
  obtain ⟨os, event⟩ := e
  cases event with
  | drop c isString payload =>
    rw [step]
    split_ifs
    · obtain ⟨call, moves, -⟩ := handleDrop_moves host os h c isString payload
      rw [moves.reported]
      exact List.Subset.refl _
    · exact List.Subset.refl _
  | goOn c => exact goOn_reported host os h c
  | close =>
    rw [step, (close_calls os h).2.1]
    exact List.Subset.refl _
  | receiveFile => exact List.Subset.refl _

theorem run_reported (host : Host) (h : FileDropHandler) (steps : List (Os × Step)) :
    h.reported ⊆ (run host h steps).reported := by
  induction steps generalizing h with
  | nil => exact List.Subset.refl _
  | cons e steps ih => exact List.Subset.trans (step_reported host h e) (ih _)

theorem replaced_ascii {s : Bytes} (small : ∀ b ∈ s, b.toNat < 0x80) : replaced s = s := by
  rw [← Ipc.utf8Text_ascii small, replaced_text]

theorem replaced_randomID (buf : Bytes) : replaced (randomID buf) = randomID buf := by
  obtain ⟨t, spelled⟩ := Ipc.hexEncode_text buf
  rw [randomID, spelled, replaced_text]

theorem randomID_filled {buf : Bytes} (filled : buf ≠ []) : randomID buf ≠ [] := by
  obtain ⟨b, rest, rfl⟩ := exists_cons_of_ne_nil filled
  exact cons_ne_nil _ _

theorem int64_zero : int64 0 := ⟨by decide, by decide⟩

section Mine
variable {host : Host} {h : FileDropHandler} {c : ℕ} {id : Bytes} {t : IncomingTransfer} {turn : Turn}

theorem decode_chunk (plain : replaced id = id) {offset : ℕ} (small : (offset : ℤ) ≤ maxTransferSize) (part : Bytes) :
    decodeMessage (encodeMessage ⟨dropChunk, id, [], 0, offset, Base64.encodeToString part⟩) =
      some ⟨dropChunk, id, [], 0, offset, Base64.encodeToString part⟩ := by
  rw [decodeMessage_encodeMessage]
  · simp only [Message.readBack, plain, replaced_ascii Base64.encodeToString_ascii]
    rfl
  · exact int64_zero
  · rw [maxTransferSize] at small
    constructor <;> dsimp only <;> omega

theorem decode_complete (plain : replaced id = id) :
    decodeMessage (encodeMessage ⟨dropComplete, id, [], 0, 0, []⟩) = some ⟨dropComplete, id, [], 0, 0, []⟩ := by
  rw [decodeMessage_encodeMessage]
  · simp only [Message.readBack, plain]
    rfl
  · exact int64_zero
  · exact int64_zero

variable (host) in
theorem Receiving.chunk (receiving : Receiving h c id t) (plain : replaced id = id) (filled : id ≠ [])
    (smooth : turn.os.Smooth) (text : turn.isString = true) (small : t.size ≤ maxTransferSize) {part : Bytes}
    (short : part.length ≤ maxChunkPayloadSize) (fits : ((t.received + part.length : ℕ) : ℤ) ≤ t.size)
    (payload : turn.payload =
      encodeMessage ⟨dropChunk, id, [], 0, (t.received : ℕ), Base64.encodeToString part⟩) :
    Receiving (run host h (turn.steps c)) c id
      ⟨t.name, t.path, t.size, t.received + part.length, ⟨t.received, part⟩ :: t.writes,
        ⟨t.received, part⟩ :: t.accepted⟩ := by
  have within : (t.received : ℤ) ≤ t.size := by omega
  have encoded : (Base64.encodeToString part).length ≤ maxBase64EncodedLen maxChunkPayloadSize := by
    rw [Base64.length_encodeToString, maxBase64EncodedLen]
    exact Nat.mul_le_mul_right 4 (Nat.div_le_div_right (Nat.add_le_add_right short 2))
  have first : h.handleDrop host turn.os c turn.isString turn.payload =
      (((h.writeFileAt t.path ⟨t.received, part⟩).put id ⟨t.name, t.path, t.size, t.received + part.length,
        ⟨t.received, part⟩ :: t.writes, ⟨t.received, part⟩ :: t.accepted⟩).returns c none) := by
    have decoded := decode_chunk plain (within.trans small) part
    have notStart : dropChunk ≠ dropStart := by decide
    rw [handleDrop, text, payload, decoded]
    simp only [not_true, if_false, notStart, if_true]
    rw [handleChunk, if_neg filled, if_neg (Nat.not_lt.mpr encoded)]
    simp only [Base64.decodeString_encodeToString, receiving.found]
    rw [if_neg (Nat.not_lt.mpr short), if_neg (by omega), if_neg (by omega), writeChunk, smooth.writes]
    rfl
  rw [run_turn receiving.idle, first]
  have returned : ∀ next : FileDropHandler, ((next.returns c none).goOn host turn.os c) = next.returns c none := by
    intro next
    rw [goOn, returns, calls_goesTo_self]
  rw [returned, returned]
  refine ⟨?_, receiving.opened, ?_⟩
  · rw [returns, calls_goesTo_self]
    rfl
  · change (put _ id _).lookup id = _
    rw [lookup_put, if_pos rfl]

theorem Receiving.complete (receiving : Receiving h c id t) (plain : replaced id = id) (filled : id ≠ [])
    (smooth : turn.os.Smooth) (text : turn.isString = true) (whole : (t.received : ℤ) = t.size)
    (payload : turn.payload = encodeMessage ⟨dropComplete, id, [], 0, 0, []⟩) :
    (⟨id, t.name, t.path, t.size⟩, t) ∈ (run host h (turn.steps c)).reported := by
  have first : h.handleDrop host turn.os c turn.isString turn.payload = (h.erase id).goesTo c (.completing id t) := by
    have notStart : dropComplete ≠ dropStart := by decide
    have notChunk : dropComplete ≠ dropChunk := by decide
    rw [handleDrop, text, payload, decode_complete plain]
    simp only [not_true, if_false, notStart, notChunk, if_true]
    rw [handleComplete, if_neg filled]
    simp only [receiving.found]
  have second : ((h.erase id).goesTo c (.completing id t)).goOn host turn.os c =
      ((h.erase id).goesTo c (.completing id t)).goesTo c (.reporting ⟨id, t.name, t.path, t.size⟩ t) := by
    rw [goOn, calls_goesTo_self]
    dsimp only
    rw [closeFile, if_neg (by simp [smooth.closes]), if_neg (by simp [whole])]
  rw [run_turn receiving.idle, first, second, goOn, calls_goesTo_self]
  exact mem_cons_self

theorem receives_parts {before : Text → Option Bytes} (plain : replaced id = id) (filled : id ≠ []) {parts : List Bytes}
    {rest : List Turn} (inv : h.Inv before) (receiving : Receiving h c id t) (length : t.content.length = t.received)
    (total : t.size = (t.received + parts.flatten.length : ℕ)) (small : t.size ≤ maxTransferSize)
    (short : ∀ part ∈ parts, part.length ≤ maxChunkPayloadSize)
    (smooth : ∀ turn ∈ rest, turn.carries id = true → turn.os.Smooth)
    (mine : (rest.filter (Turn.carries id)).map Turn.payload =
      sendChunks id t.received parts ++ [encodeMessage ⟨dropComplete, id, [], 0, 0, []⟩]) :
    ∃ t', (⟨id, t.name, t.path, t.size⟩, t') ∈ (handled host c h rest).reported ∧
      t'.content = t.content ++ parts.flatten := by
  induction rest generalizing h t parts with
  | nil =>
    have empty := congrArg List.length mine
    simp at empty
  | cons turn rest ih =>
    have later : ∀ turn ∈ rest, turn.carries id = true → turn.os.Smooth :=
      fun turn member => smooth turn (mem_cons_of_mem _ member)
    have kept : (run host h (turn.steps c)).Inv before := inv.run host _
    rw [handled_cons]
    cases carried : turn.carries id with
    | false =>
      rw [filter_cons_of_neg (by simp [carried])] at mine
      exact ih kept (receiving.other carried) length total small short later mine
    | true =>
      rw [filter_cons_of_pos carried, map_cons] at mine
      have easy := smooth turn mem_cons_self carried
      have text : turn.isString = true := (Bool.and_eq_true_iff.mp carried).1
      cases parts with
      | nil =>
        obtain ⟨payload, -⟩ := List.cons.inj mine
        have whole : (t.received : ℤ) = t.size := by simpa using total.symm
        refine ⟨t, run_reported host _ _ ?_, by simp⟩
        exact receiving.complete plain filled easy text whole payload
      | cons part parts =>
        obtain ⟨payload, others⟩ := List.cons.inj mine
        rw [flatten_cons, length_append] at total
        have fits : ((t.received + part.length : ℕ) : ℤ) ≤ t.size := by omega
        have next := receiving.chunk host plain filled easy text small (short part mem_cons_self) fits
          payload
        have content : written 0 (⟨t.received, part⟩ :: t.writes) = t.content ++ part := by
          rw [written, ← IncomingTransfer.content, ← length, writeAt_end]
        have grown : (written 0 (⟨t.received, part⟩ :: t.writes)).length = t.received + part.length := by
          rw [content, length_append, length]
        obtain ⟨t', member, same⟩ := ih kept next grown (by dsimp only; omega) small
          (fun p listed => short p (mem_cons_of_mem part listed)) later others
        refine ⟨t', member, ?_⟩
        rw [same, IncomingTransfer.content, content, flatten_cons, append_assoc]

end Mine

theorem mem_replaced {s : Bytes} {b : UInt8} (member : b ∈ replaced s) (small : b.toNat < 0x80) : b ∈ s := by
  obtain ⟨c, rune, inside⟩ := mem_flatMap.mp member
  rcases mem_runes rune with rfl | all
  · have large : ∀ x ∈ String.utf8EncodeChar replacement, ¬x.toNat < 0x80 := by decide +kernel
    exact absurd small (large b inside)
  · exact all b inside

theorem PlainName.replaced (plain : PlainName name) : PlainName (replaced name) := by
  obtain ⟨filled, slash, backslash, dot⟩ := plain
  obtain ⟨b, rest, rfl⟩ := exists_cons_of_ne_nil filled
  have head : ∃ d others, JsonText.replaced (b :: rest) = d :: others ∧ d ≠ code '.' := by
    rw [JsonText.replaced, length_cons]
    rcases quotePieces_cons rest.length b rest with ⟨c, tail, same, -, chars⟩ | ⟨-, chars⟩
    · obtain ⟨d, others, encoded⟩ := exists_cons_of_ne_nil (String.utf8EncodeChar_ne_nil (c := c))
      rw [encoded, cons_append] at same
      rw [chars, utf8Text, flatMap_cons, encoded]
      refine ⟨d, _, rfl, ?_⟩
      rintro rfl
      exact dot (by rw [(List.cons.inj same).1]; rfl)
    · rw [chars, utf8Text, flatMap_cons]
      exact ⟨0xef, _, rfl, by decide⟩
  obtain ⟨d, others, same, other⟩ := head
  refine ⟨?_, ?_, ?_, ?_⟩
  · rw [same]
    exact cons_ne_nil _ _
  · exact fun member => slash (mem_replaced member (by decide))
  · exact fun member => backslash (mem_replaced member (by decide))
  · rw [same, head?_cons]
    exact fun equal => other (some.inj equal)

theorem base_plain (plain : PlainName name) : base name = name := by
  have all : ∀ b ∈ name.reverse, b ≠ code '/' := by
    rintro b member rfl
    exact plain.2.1 (mem_reverse.mp member)
  have kept : name.reverse.dropWhile (· = code '/') = name.reverse := by
    cases reversed : name.reverse with
    | nil => rfl
    | cons b rest =>
      rw [reversed] at all
      rw [dropWhile_cons_of_neg (by simpa using all b mem_cons_self)]
  have whole : name.reverse.takeWhile (· ≠ code '/') = name.reverse :=
    takeWhile_eq_self_iff.mpr fun b member => by simpa using all b member
  rw [base, if_neg plain.1, kept, whole, reverse_reverse]
  exact if_neg plain.1

theorem safeNameOf_plain (plain : PlainName name) : safeNameOf name = some name := by
  obtain ⟨filled, slash, backslash, dot⟩ := plain
  have special : ¬(name = [code '.'] ∨ name = [code '.', code '.'] ∨ name = [code '/']) := by
    rintro (rfl | rfl | rfl)
    · exact dot rfl
    · exact dot rfl
    · exact slash mem_cons_self
  have odd : ¬(name.any (fun b => b = code '/' ∨ b = code '\\') = true ∨ name.head? = some (code '.')) := by
    rintro (any | head)
    · obtain ⟨b, member, sep⟩ := List.any_eq_true.mp any
      rcases of_decide_eq_true sep with rfl | rfl
      · exact slash member
      · exact backslash member
    · exact dot head
  simp only [safeNameOf, base_plain ⟨filled, slash, backslash, dot⟩]
  rw [if_neg special, if_neg odd]

theorem isName_plain (plain : PlainName name) : IsName (byteText name) := by
  have slash : ∀ n < 256, Char.ofNat n = '/' → n = 47 := by decide +kernel
  have dot : ∀ n < 256, Char.ofNat n = '.' → n = 46 := by decide +kernel
  obtain ⟨filled, noSlash, -, noDot⟩ := plain
  have head : (byteText name).head? ≠ some '.' := by
    obtain ⟨b, rest, rfl⟩ := exists_cons_of_ne_nil filled
    intro same
    have value := dot b.toNat b.toNat_lt (some.inj same)
    exact noDot (by rw [head?_cons, UInt8.toNat_inj.mp (value.trans (by decide : 46 = (code '.').toNat))])
  refine ⟨?_, ?_, ?_, ?_⟩
  · exact fun none => filled (map_eq_nil_iff.mp none)
  · intro member
    obtain ⟨b, listed, same⟩ := List.mem_map.mp member
    have value := slash b.toNat b.toNat_lt same
    exact noSlash (UInt8.toNat_inj.mp (value.trans (by decide : 47 = (code '/').toNat)) ▸ listed)
  · intro same
    exact head (by rw [same]; rfl)
  · intro same
    exact head (by rw [same]; rfl)

def receiveDirOf (host : Host) (os : Os) (h : FileDropHandler) : Text :=
  if h.receiveDir ≠ [] then h.receiveDir else mkdirTemp host os

def receivePath (host : Host) (os : Os) (h : FileDropHandler) (name : Bytes) : Text :=
  joinPath [receiveDirOf host os h, byteText name]

/-- The handler can take up a transfer under the name. -/
structure Ready (host : Host) (os : Os) (h : FileDropHandler) (c : ℕ) (id name : Bytes) : Prop where
  idle : (h.calls c).idle = true
  opened : h.closed = false
  unused : h.lookup id = none
  room : h.transfers.length < maxConcurrentTransfers
  directory : ∃ dirs, dirs ≠ [] ∧ (∀ t ∈ dirs, IsName t) ∧ receiveDirOf host os h = '/' :: slashed dirs
  free : h.files (receivePath host os h name) = none

theorem ensureReceiveDir_made (smooth : os.Smooth) (host : Host) (h : FileDropHandler) :
    ensureReceiveDir host os h = some { h with receiveDir := receiveDirOf host os h } := by
  rw [ensureReceiveDir, if_neg (by simp [smooth.makesDir]), receiveDirOf]
  split_ifs <;> rfl

theorem resolved_inside (host : Host) {dirs : List Text} (some_dir : dirs ≠ []) (names : ∀ t ∈ dirs, IsName t)
    (plain : PlainName name) :
    absPath host ('/' :: slashed dirs) = some ('/' :: slashed dirs) ∧
      absPath host (joinPath ['/' :: slashed dirs, byteText name]) =
        some ('/' :: (slashed dirs ++ '/' :: byteText name)) := by
  have all : ∀ t ∈ dirs ++ [byteText name], IsName t := by
    intro t member
    rcases mem_append.mp member with dir | last
    · exact names t dir
    · exact mem_singleton.mp last ▸ isName_plain plain
  have joined : joinPath ['/' :: slashed dirs, byteText name] = '/' :: slashed (dirs ++ [byteText name]) :=
    joinPath_rooted all (cons_ne_nil _ _)
  constructor
  · rw [absPath, if_pos head?_cons, cleanPath_rooted names]
  · rw [joined, absPath, if_pos head?_cons, cleanPath_rooted all, slashed_append some_dir (cons_ne_nil _ _),
      slashed_singleton]

theorem goOn_opening {message : Message} {safeName : Bytes}
    {dir : Text} (own : h.calls c = .opening message safeName dir) :
    h.goOn host os c = h.openFile host os c message safeName dir := by
  rw [goOn, own]

theorem goOn_starting {message : Message} {safeName : Bytes}
    {path : Text} (own : h.calls c = .starting message safeName path) :
    h.goOn host os c = h.register os c message safeName path := by
  rw [goOn, own]

theorem Ready.start {size : ℕ}
    (ready : Ready host turn.os h c id (replaced name)) (plainId : replaced id = id) (filled : id ≠ [])
    (plain : PlainName name) (smooth : turn.os.Smooth) (text : turn.isString = true)
    (small : (size : ℤ) ≤ maxTransferSize) (payload : turn.payload = encodeMessage ⟨dropStart, id, name, size, 0, []⟩) :
    Receiving (run host h (turn.steps c)) c id
      ⟨replaced name, receivePath host turn.os h (replaced name), size, 0, [], []⟩ := by
  obtain ⟨dirs, some_dir, names, dir⟩ := ready.directory
  have named := plain.replaced
  have decoded : decodeMessage turn.payload = some ⟨dropStart, id, replaced name, size, 0, []⟩ := by
    rw [payload, decodeMessage_encodeMessage]
    · simp only [Message.readBack, plainId]
      rfl
    · rw [maxTransferSize] at small
      constructor <;> dsimp only <;> omega
    · exact int64_zero
  have first : h.handleDrop host turn.os c turn.isString turn.payload =
      { h with receiveDir := receiveDirOf host turn.os h }.goesTo c
        (.opening ⟨dropStart, id, replaced name, size, 0, []⟩ (replaced name) (receiveDirOf host turn.os h)) := by
    rw [handleDrop, text, decoded]
    simp only [not_true, if_false, if_true]
    rw [handleStart, if_neg filled, if_neg named.1]
    simp only [safeNameOf_plain named]
    rw [if_neg (not_lt.mpr small), ensureReceiveDir_made smooth]
  obtain ⟨resolvedDir, resolvedFile⟩ := resolved_inside host some_dir names named
  have inside : ('/' :: slashed dirs ++ ['/']).isPrefixOf ('/' :: (slashed dirs ++ '/' :: byteText (replaced name))) =
      true := by
    rw [List.isPrefixOf_iff_prefix]
    exact ⟨byteText (replaced name), by simp⟩
  have free := ready.free
  rw [receivePath, dir] at free
  rw [run_turn ready.idle, first, receivePath, dir, goOn_opening (calls_goesTo_self ..),
    FileDropHandler.openFile, resolvedDir, resolvedFile]
  dsimp only
  rw [if_neg (by rw [inside]; simp), if_neg, goOn_starting (calls_goesTo_self ..), register, if_neg, if_neg, if_neg]
  · refine ⟨?_, ready.opened, ?_⟩
    · rw [returns, calls_goesTo_self]
      rfl
    · change (put _ id _).lookup id = _
      rw [lookup_put, if_pos rfl]
  · exact Nat.not_le.mpr ready.room
  · change ¬(h.lookup id).isSome = true
    rw [ready.unused]
    simp
  · change ¬h.closed = true
    rw [ready.opened]
    simp
  · rw [not_or, not_not, not_not]
    exact ⟨smooth.opens, free⟩

theorem sent_file_received {before : Text → Option Bytes} (inv : h.Inv before)
    {buf path content : Bytes} {configured : ℤ} (reads : FileReads content (chunkSizeOf configured))
    {first : Turn} {rest : List Turn} (some_bytes : buf ≠ []) (small : (content.length : ℤ) ≤ maxTransferSize)
    (plain : PlainName (base path)) (ready : Ready host first.os h c (randomID buf) (replaced (base path)))
    (smooth : ∀ turn ∈ first :: rest, turn.carries (randomID buf) = true → turn.os.Smooth)
    (text : first.isString = true)
    (mine : first.payload :: (rest.filter (Turn.carries (randomID buf))).map Turn.payload =
      sendFile (randomID buf) path content.length reads.parts) :
    ∃ r t, (r, t) ∈ (handled host c h (first :: rest)).reported ∧ r.transferID = randomID buf ∧
      r.name = replaced (base path) ∧ r.size = content.length ∧
      (handled host c h (first :: rest)).files r.path = some content := by
  obtain ⟨payload, others⟩ := List.cons.inj mine
  have plainId := replaced_randomID buf
  have filled := randomID_filled some_bytes
  have carried : first.carries (randomID buf) = true := by
    rw [Turn.carries, text, payload, decodeMessage_encodeMessage]
    · simp [Message.readBack, plainId]
    · rw [maxTransferSize] at small
      constructor <;> dsimp only <;> omega
    · exact int64_zero
  have easy := smooth first mem_cons_self carried
  have started := ready.start plainId filled plain easy text small payload
  have whole := congrArg List.length reads.whole
  have limit : chunkSizeOf configured ≤ maxChunkPayloadSize := by
    unfold chunkSizeOf
    split_ifs
    · decide
    · exact Nat.le_refl _
    · omega
  obtain ⟨t, member, same⟩ := receives_parts plainId filled (inv.run host _) started rfl (by simp [whole]) small
    (fun part listed => (reads.short part listed).trans limit)
    (fun turn listed => smooth turn (mem_cons_of_mem first listed)) others
  rw [← handled_cons] at member
  refine ⟨_, t, member, rfl, rfl, rfl, ?_⟩
  have held := reported_content (inv.run host ((first :: rest).flatMap (Turn.steps c))) member
  rw [same] at held
  exact held.trans (congrArg some reads.whole)

end RemudaRmm.Endpoint.FileDrop
