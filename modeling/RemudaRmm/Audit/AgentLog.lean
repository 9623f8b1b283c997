import RemudaRmm.Audit.SealedLog
import RemudaRmm.Foundation.Runs

/-! The audit log of the agent (`audit.go`): its files, the logger with the head of the chain, rotations and restarts.
The length of the line of an entry is a parameter. -/
namespace RemudaRmm.Audit.AgentLog
open Foundation List Function Option

/-- Details are the text of their JSON. -/
structure Entry where
  (timestamp eventType commandId : Text)
  details : Option Text
  (prevHash entryHash : Text)
  deriving DecidableEq

def byteLength (t : Text) : ℕ := (t.map Char.utf8Size).sum

def lengthPrefixed (field : Text) : Text := decimal (byteLength field) ++ ':' :: field

def computeHash (hash : IdealHash) (e : Entry) : Text :=
  hash.hex (([e.timestamp, e.eventType, e.commandId, e.prevHash] ++ e.details.toList).flatMap lengthPrefixed)

/-- A line that is no entry is none; `cut` when the last line has no end yet. -/
structure LogFile where
  lines : List (Option Entry)
  cut : Bool
  size : ℕ
  deriving DecidableEq

/-- How a write ends: with an error after some bytes, or complete. -/
inductive WriteOutcome where
  | complete
  | failed (bytes : ℕ)
  deriving DecidableEq

structure Logger where
  isOpen : Bool
  written : ℕ
  prevHash : Text
  deriving DecidableEq

/-- `files 0` is the current file, `files i` its backup; `life` has the entries of the log's life that were written. -/
structure LogWorld where
  files : ℕ → Option LogFile
  logger : Option Logger
  life : List Entry

structure AuditConfig where
  maxSize : ℕ
  maxBackups : ℕ
  lineLength : Entry → ℕ

/-- How the calls of one rotation end; `renamed i` for the rename to the backup `i`. -/
structure Rotation where
  removed : Bool
  renamed : ℕ → Bool
  opened : Bool
  timestamp : Text
  details : Text
  sentinel : WriteOutcome

/-- `marshals` when the details can be written as JSON. -/
structure LogCall where
  (timestamp eventType commandId : Text)
  details : Option Text
  marshals : Bool
  rotation : Rotation
  outcome : WriteOutcome

inductive LogEvent where
  | newLogger (opened : Bool)
  | log (call : LogCall)

/-- An empty object is hashed, and left out of the line. -/
def entryOf (hash : IdealHash) (timestamp eventType commandId : Text) (details : Option Text) (prevHash : Text) :
    Entry where
  timestamp := timestamp
  eventType := eventType
  commandId := commandId
  details := details.filter (· ≠ "\x7b\x7d".toList)
  prevHash := prevHash
  entryHash := computeHash hash ⟨timestamp, eventType, commandId, details, prevHash, []⟩

section Steps
variable (hash : IdealHash) (config : AuditConfig)

def LogFile.write (f : LogFile) (e : Entry) : WriteOutcome → LogFile
  | .complete =>
    { lines := f.lines ++ [if f.cut then none else some e], cut := false, size := f.size + config.lineLength e }
  | .failed 0 => f
  | .failed bytes => { f with cut := true, size := f.size + bytes }

/-- The write of a line to the current file, unless it is closed; on success the head of the chain is the new entry. -/
def LogWorld.write (w : LogWorld) (l : Logger) (e : Entry) (outcome : WriteOutcome) (failedHash : Text) : LogWorld :=
  match l.isOpen, w.files 0, outcome with
  | true, some f, .complete =>
    { files := update w.files 0 (some (f.write config e .complete))
      logger := some { l with written := l.written + config.lineLength e, prevHash := e.entryHash }
      life := w.life ++ [e] }
  | true, some f, outcome =>
    { w with
      files := update w.files 0 (some (f.write config e outcome))
      logger := some { l with prevHash := failedHash } }
  | _, _, _ => { w with logger := some { l with prevHash := failedHash } }

def openFile (w : LogWorld) (prevHash : Text) : LogWorld :=
  let f := (w.files 0).getD ⟨[], false, 0⟩
  { w with files := update w.files 0 (some f), logger := some ⟨true, f.size, prevHash⟩ }

def rename (files : ℕ → Option LogFile) (src dst : ℕ) : ℕ → Option LogFile :=
  match files src with
  | some f => update (update files dst (some f)) src none
  | none => files

/-- The backups move up, the oldest one first, and the current file becomes the first of them. -/
def shift (files : ℕ → Option LogFile) (r : Rotation) : ℕ → Option LogFile :=
  let kept := if r.removed ∧ 2 ≤ config.maxBackups then update files config.maxBackups none else files
  (List.range config.maxBackups).reverse.foldl
    (fun files i => if r.renamed (i + 1) then rename files i (i + 1) else files) kept

/-- The current file is closed, moved and opened again, with the sentinel as its first entry. -/
def rotate (w : LogWorld) (l : Logger) (r : Rotation) : LogWorld :=
  let moved := { w with files := shift config w.files r }
  if r.opened then
    let opened := openFile moved l.prevHash
    let sentinel := entryOf hash r.timestamp "log_rotated".toList [] (some r.details) l.prevHash
    opened.write config ⟨true, ((opened.files 0).map LogFile.size).getD 0, l.prevHash⟩ sentinel r.sentinel
      "chain-broken".toList
  else { moved with logger := some { l with isOpen := false } }

/-- The entry names the head of the chain as it was before a rotation. -/
def logCall (w : LogWorld) (l : Logger) (call : LogCall) : LogWorld :=
  let entry := entryOf hash call.timestamp call.eventType call.commandId call.details l.prevHash
  if l.written + config.lineLength entry ≤ config.maxSize then w.write config l entry call.outcome l.prevHash
  else
    let rotated := rotate hash config w l call.rotation
    match call.rotation.opened, rotated.logger with
    | true, some l => rotated.write config l entry call.outcome l.prevHash
    | _, _ => rotated

def logStep (w : LogWorld) : LogEvent → LogWorld
  | .newLogger true => openFile w "genesis".toList
  | .newLogger false => { w with logger := none }
  | .log call =>
    match w.logger with
    | some l => if call.marshals then logCall hash config w l call else w
    | none => w

end Steps

def emptyLog : LogWorld := ⟨fun _ => none, none, []⟩

def content (files : ℕ → Option LogFile) (i : ℕ) : List Entry := ((files i).elim [] LogFile.lines).reduceOption

/-- The complete entries from the oldest of so many backups to the current file. -/
def retained (files : ℕ → Option LogFile) : ℕ → List Entry
  | 0 => content files 0
  | n + 1 => content files (n + 1) ++ retained files n

section Chain
variable (hash : IdealHash) (config : AuditConfig)

/-- Each entry has its hash and names the hash of the one before it. -/
structure Chained (entries : List Entry) : Prop where
  hashed : ∀ e ∈ entries, computeHash hash e = e.entryHash
  linked : Linked (fun e => some e.prevHash) Entry.entryHash entries

/-- The retained entries are the end of one chain, and of all chains with their last entry: what else ends with it is a
part or a continuation to the front, and the same if both begin with the life of the log. -/
structure OneChain (w : LogWorld) : Prop where
  chained : Chained hash (retained w.files config.maxBackups)
  pruned : retained w.files config.maxBackups <:+ w.life
  first : ∀ e ∈ w.life.head?, e.prevHash = "genesis".toList
  binding : ∀ forged e, Chained hash (forged ++ [e]) → (retained w.files config.maxBackups).getLast? = some e →
    forged ++ [e] <:+ retained w.files config.maxBackups ∨ retained w.files config.maxBackups <:+ forged ++ [e]
  rooted : ∀ forged, Chained hash forged → forged <:+ retained w.files config.maxBackups →
    (∃ e ∈ forged.head?, e.prevHash = "genesis".toList) → forged = retained w.files config.maxBackups

/-- No logger is made once there is an entry, details are no empty object, and a line fits in the current file and is
written as a whole or not at all. -/
def Allowed (w : LogWorld) : LogEvent → Prop
  | .newLogger opened => opened = true → w.life = []
  | .log call => call.details ≠ some "\x7b\x7d".toList ∧ (call.outcome = .complete ∨ call.outcome = .failed 0) ∧
      ∀ l ∈ w.logger, l.written + config.lineLength (entryOf hash call.timestamp call.eventType call.commandId
        call.details l.prevHash) ≤ config.maxSize

instance (w : LogWorld) : (e : LogEvent) → Decidable (Allowed hash config w e)
  | .newLogger _ => inferInstanceAs (Decidable (_ → _))
  | .log call => inferInstanceAs (Decidable (_ ∧ _ ∧ ∀ l ∈ w.logger, l.written + config.lineLength (entryOf hash
      call.timestamp call.eventType call.commandId call.details l.prevHash) ≤ config.maxSize))

theorem byteLength_split {a b c d : Text} (same : a ++ c = b ++ d) (sized : byteLength a = byteLength b) :
    a = b ∧ c = d := by
  induction a generalizing b with
  | nil =>
    cases b with
    | nil => exact ⟨rfl, same⟩
    | cons y b =>
      have positive := Char.utf8Size_pos y
      simp only [byteLength, map_nil, sum_nil, map_cons, sum_cons] at sized
      omega
  | cons x a ih =>
    cases b with
    | nil =>
      have positive := Char.utf8Size_pos x
      simp only [byteLength, map_nil, sum_nil, map_cons, sum_cons] at sized
      omega
    | cons y b =>
      obtain ⟨rfl, rest⟩ := List.cons.inj same
      simp only [byteLength, map_cons, sum_cons, Nat.add_left_cancel_iff] at sized
      obtain ⟨rfl, tail⟩ := ih rest sized
      exact ⟨rfl, tail⟩

theorem lengthPrefixed_injective : Injective fun fields : List Text => fields.flatMap lengthPrefixed := by
  intro s t same
  induction s generalizing t with
  | nil =>
    cases t with
    | nil => rfl
    | cons b t => simp [lengthPrefixed] at same
  | cons a s ih =>
    cases t with
    | nil => simp [lengthPrefixed] at same
    | cons b t =>
      simp only [flatMap_cons, lengthPrefixed, append_assoc, cons_append] at same
      obtain ⟨sized, rest⟩ := append_sep_inj (notin_decimal (by decide) _) (notin_decimal (by decide) _) same
      have lengths : byteLength a = byteLength b := by simpa only [number_decimal] using congrArg number sized
      obtain ⟨rfl, tail⟩ := byteLength_split rest lengths
      rw [ih tail]

theorem eq_of_entryHash {a b : Entry} (first : computeHash hash a = a.entryHash)
    (second : computeHash hash b = b.entryHash) (same : a.entryHash = b.entryHash) : a = b := by
  have fields := lengthPrefixed_injective (hash.injective (first.trans (same.trans second.symm)))
  cases a with
  | mk timestamp eventType commandId details prevHash entryHash =>
    cases b with
    | mk timestamp' eventType' commandId' details' prevHash' entryHash' =>
      cases details <;> cases details' <;> simp_all

theorem hex_ne_genesis (t : Text) : hash.hex t ≠ "genesis".toList := by
  intro same
  have digit := hash.digits t 'g' (same ▸ by decide)
  exact absurd digit (by decide)

/-- What is kept while no condition is missed: one file, and the head of the chain. -/
structure Kept (w : LogWorld) : Prop where
  others : ∀ i, i ≠ 0 → w.files i = none
  current : (w.files 0).elim [] LogFile.lines = w.life.map some
  whole : ∀ f ∈ w.files 0, f.cut = false
  chained : Chained hash w.life
  first : ∀ e ∈ w.life.head?, e.prevHash = "genesis".toList
  head : ∀ l ∈ w.logger, l.prevHash = (w.life.getLast?.map Entry.entryHash).getD "genesis".toList

variable {hash config} {e : Entry}

theorem Chained.front {front : List Entry} (chained : Chained hash (front ++ [e])) : Chained hash front :=
  ⟨fun x among => chained.hashed x (mem_append_left _ among), chained.linked.part (prefix_append _ _).isInfix⟩

theorem Chained.named {front back : List Entry} {a e : Entry} (chained : Chained hash (front ++ a :: e :: back)) :
    e.prevHash = a.entryHash := by
  have pair : [a, e] <:+: front ++ a :: e :: back := ⟨front, back, by simp⟩
  have linked : Linked (fun e => some e.prevHash) Entry.entryHash [a, e] := chained.linked.part pair
  exact some.inj (isChain_cons_cons.mp linked).1

theorem Chained.suffix_total {entries : List Entry} (chained : Chained hash entries) {forged : List Entry}
    (again : Chained hash (forged ++ [e])) (last : entries.getLast? = some e) :
    forged ++ [e] <:+ entries ∨ entries <:+ forged ++ [e] := by
  induction forged using List.reverseRecOn generalizing entries e with
  | nil =>
    obtain ⟨front, rfl⟩ := getLast?_eq_some_iff.mp last
    exact .inl (suffix_append front [e])
  | append_singleton forged before ih =>
    obtain ⟨front, rfl⟩ := getLast?_eq_some_iff.mp last
    cases shorter : front.getLast? with
    | none =>
      rw [getLast?_eq_none_iff.mp shorter]
      exact .inr (suffix_append (forged ++ [before]) [e])
    | some other =>
      obtain ⟨fore, rfl⟩ := getLast?_eq_some_iff.mp shorter
      have named := @Chained.named hash fore [] other e (by simpa using chained)
      have named' := @Chained.named hash forged [] before e (by simpa using again)
      obtain rfl := eq_of_entryHash hash (chained.hashed other (by simp)) (again.hashed before (by simp))
        (named.symm.trans named')
      rcases ih chained.front again.front shorter with ⟨pre, part⟩ | ⟨pre, part⟩
      · exact .inl ⟨pre, by rw [← part, ← append_assoc]⟩
      · exact .inr ⟨pre, by rw [← part, ← append_assoc]⟩

theorem Chained.eq_of_rooted {entries forged : List Entry} (chained : Chained hash entries) (part : forged <:+ entries) (first : forged.head? = some e) (genesis : e.prevHash = "genesis".toList) : forged = entries := by
  obtain ⟨pre, rfl⟩ := part
  cases forged with
  | nil => cases first
  | cons x forged =>
    cases first
    cases last : pre.getLast? with
    | none => rw [getLast?_eq_none_iff.mp last, nil_append]
    | some a =>
      obtain ⟨fore, rfl⟩ := getLast?_eq_some_iff.mp last
      have named := @Chained.named hash fore forged a e (by simpa using chained)
      have hashed := chained.hashed a (by simp)
      exact absurd (hashed.trans (named.symm.trans genesis)) (hex_ne_genesis hash _)

variable {w : LogWorld}

theorem Kept.retained (kept : Kept hash w) (n : ℕ) : retained w.files n = w.life := by
  induction n with
  | zero =>
    rw [AgentLog.retained, content, kept.current]
    exact filterMap_map.trans filterMap_some
  | succ n ih =>
    rw [AgentLog.retained, ih, content, kept.others (n + 1) (Nat.succ_ne_zero n)]
    rfl

theorem Kept.oneChain (kept : Kept hash w) : OneChain hash config w := by
  have all := kept.retained config.maxBackups
  refine ⟨all.symm ▸ kept.chained, all.symm ▸ suffix_rfl, kept.first, ?_, ?_⟩
  · intro forged e again last
    rw [all] at last ⊢
    exact kept.chained.suffix_total again last
  · rintro forged - part ⟨e, first, genesis⟩
    rw [all] at part ⊢
    exact kept.chained.eq_of_rooted part (mem_def.mp first) genesis

theorem hashed_entryOf {timestamp eventType commandId prevHash : Text} {details : Option Text}
    (filled : details ≠ some "\x7b\x7d".toList) :
    computeHash hash (entryOf hash timestamp eventType commandId details prevHash) =
      (entryOf hash timestamp eventType commandId details prevHash).entryHash := by
  have same : details.filter (· ≠ "\x7b\x7d".toList) = details := by
    cases details with
    | none => rfl
    | some t => exact filter_some_pos (by simpa using fun equal : t = _ => filled (congrArg some equal))
  simp only [entryOf, same]
  rfl

theorem Kept.relog (kept : Kept hash w) {l l' : Logger} (head : w.logger = some l)
    (same : l'.prevHash = l.prevHash) : Kept hash { w with logger := some l' } where
  others := kept.others
  current := kept.current
  whole := kept.whole
  chained := kept.chained
  first := kept.first
  head := by
    intro x found
    cases found
    exact same.trans (kept.head l head)

theorem Kept.append (kept : Kept hash w) {l next : Logger} {f : LogFile}
    (head : w.logger = some l) (hashed : computeHash hash e = e.entryHash) (named : e.prevHash = l.prevHash)
    (current : w.files 0 = some f) (advanced : next.prevHash = e.entryHash) :
    Kept hash ⟨update w.files 0 (some (f.write config e .complete)), some next, w.life ++ [e]⟩ := by
  have top := named.trans (kept.head l head)
  have lines : f.lines = w.life.map some := by simpa only [current, Option.elim] using kept.current
  have whole := kept.whole f current
  refine ⟨fun i other => (update_of_ne other _ _).trans (kept.others i other), ?_, ?_, ⟨?_, ?_⟩, ?_, ?_⟩
  · simp [LogFile.write, lines, whole]
  · simp [LogFile.write]
  · intro x among
    rcases mem_append.mp among with old | new
    · exact kept.chained.hashed x old
    · exact mem_singleton.mp new ▸ hashed
  · refine linked_concat kept.chained.linked fun filled => ?_
    rw [top]
    cases last : w.life.getLast? with
    | none => exact absurd (getLast?_eq_none_iff.mp last) filled
    | some a => rfl
  · intro x found
    cases life : w.life with
    | nil =>
      rw [life] at found top
      cases found
      exact top
    | cons a rest =>
      rw [life] at found
      exact kept.first x (life ▸ found)
  · intro x found
    cases found
    simpa using advanced

theorem Kept.write (kept : Kept hash w) {l : Logger} (head : w.logger = some l)
    (hashed : computeHash hash e = e.entryHash) (named : e.prevHash = l.prevHash) {outcome : WriteOutcome}
    (clean : outcome = .complete ∨ outcome = .failed 0) : Kept hash (w.write config l e outcome l.prevHash) := by
  unfold LogWorld.write
  split
  next f opened current => exact kept.append head hashed named current rfl
  next f opened current incomplete =>
    obtain rfl := clean.resolve_left incomplete
    have same : update w.files 0 (some (f.write config e (.failed 0))) = w.files := by
      rw [LogFile.write, ← current, update_eq_self]
    rw [same]
    exact kept.relog head rfl
  next => exact kept.relog head rfl

theorem Kept.step {event : LogEvent} (kept : Kept hash w)
    (allowed : Allowed hash config w event) : Kept hash (logStep hash config w event) := by
  cases event with
  | newLogger opened =>
    cases opened with
    | false => exact ⟨kept.others, kept.current, kept.whole, kept.chained, kept.first, by simp [logStep]⟩
    | true =>
      have empty := allowed rfl
      refine ⟨fun i other => (update_of_ne other _ _).trans (kept.others i other), ?_, ?_, kept.chained, kept.first, ?_⟩
      · have lines := kept.current
        simp only [logStep, openFile, update_self, Option.elim, empty, map_nil] at lines ⊢
        cases current : w.files 0 with
        | none => rfl
        | some f => simpa [current] using lines
      · intro f found
        simp only [logStep, openFile, update_self, mem_def, some.injEq] at found
        subst found
        cases current : w.files 0 with
        | none => rfl
        | some f => exact kept.whole f current
      · intro l found
        cases found
        simp only [logStep, openFile, empty]
        rfl
  | log call =>
    obtain ⟨filled, clean, fits⟩ := allowed
    simp only [logStep]
    cases head : w.logger with
    | none => exact kept
    | some l =>
      simp only
      split_ifs with marshals
      · rw [logCall, if_pos (fits l head)]
        exact kept.write head (hashed_entryOf filled) rfl clean
      · exact kept

theorem kept_empty : Kept hash emptyLog :=
  ⟨fun _ _ => rfl, rfl, by simp [emptyLog], ⟨by simp [emptyLog], isChain_nil⟩, by simp [emptyLog], by simp [emptyLog]⟩

end Chain

/-- In every run of the agent in which no logger is made once there is an entry, no line needs a rotation or is written
in part, and details are no empty object, the log is one chain. -/
theorem oneChain_throughout (hash : IdealHash) (config : AuditConfig) {events : List LogEvent}
    (meet : StepsMeet (logStep hash config) (Allowed hash config) emptyLog events) :
    Throughout (logStep hash config) (OneChain hash config) emptyLog events := by
  have kept := throughout_of_invariant (fun w e kept allowed => Kept.step kept allowed) kept_empty meet
  exact fun pre post split => (kept pre post split).oneChain

def plainHash : IdealHash := (⟨[], by simp, by simp⟩ : Digests).hash

def sampleConfig : AuditConfig := ⟨1048576, 3, fun _ => 320⟩

def sampleCall (eventType : String) (outcome : WriteOutcome) : LogCall where
  timestamp := "2026-06-15T08:30:00Z".toList
  eventType := eventType.toList
  commandId := []
  details := some "\x7b\"version\":\"1.0\"\x7d".toList
  marshals := true
  rotation := ⟨true, fun _ => true, true, [], [], .complete⟩
  outcome := outcome

def startAndStop : List LogEvent :=
  [.newLogger true, .log (sampleCall "agent_start" .complete), .log (sampleCall "config_change" (.failed 0)),
    .log (sampleCall "agent_stop" .complete)]

theorem oneChain_startAndStop : Throughout (logStep plainHash sampleConfig) (OneChain plainHash sampleConfig) emptyLog
    startAndStop :=
  oneChain_throughout plainHash sampleConfig (by decide +kernel)

def restarted : List LogEvent :=
  [.newLogger true, .log (sampleCall "agent_start" .complete), .newLogger true,
    .log (sampleCall "agent_start" .complete)]

/-- The first entry after a restart names no entry of the file that it is appended to. -/
theorem not_oneChain_restarted : ¬Throughout (logStep plainHash sampleConfig) (OneChain plainHash sampleConfig) emptyLog
    restarted := by
  intro throughout
  have linked := throughout.last.chained.linked
  have first : ∃ a b, retained ((restarted.foldl (logStep plainHash sampleConfig) emptyLog).files)
      sampleConfig.maxBackups = [a, b] ∧ b.prevHash = "genesis".toList ∧ a.entryHash = computeHash plainHash a :=
    ⟨_, _, rfl, rfl, rfl⟩
  obtain ⟨a, b, both, genesis, hashed⟩ := first
  rw [both] at linked
  have named : b.prevHash = a.entryHash := some.inj (isChain_cons_cons.mp linked).1
  exact hex_ne_genesis plainHash _ (hashed.symm.trans (named.symm.trans genesis))

end RemudaRmm.Audit.AgentLog
