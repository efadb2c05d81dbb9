import NestedBatch.Machine.Basic
import NestedBatch.Proofs.Files.Plain
import NestedBatch.Proofs.Repository.Operation

/-! A repository that keeps its records in a file can be dropped and opened again
wherever the file was last written without a fault: no answer changes, but for
the flags of contexts. -/
namespace NestedBatch

def Records.stored (text : String) : Except BatchError Records :=
  match Records.ofText? text with
  | some records => .ok records
  | none => .error .json

theorem Records.stored_text {r : Records} (storable : r.Storable) :
    stored r.text = .ok r.clean := by
  simp only [stored, ofText?_text_of_storable storable]

/-- A clock, and a file that holds what was last written into it, if that was
written without a fault. When there is a fault nothing is known of the file. -/
structure Disk (W : Type) where
  now : W → Instant × W
  write : String → W → Option IoFault × W
  opened : W → Except BatchError Records
  opened_now : ∀ w, opened (now w).2 = opened w
  opened_write : ∀ {text w w'}, write text w = (none, w') → opened w' = Records.stored text

namespace Disk

variable {W : Type} (d : Disk W)

def host : Host W := ⟨d.now, fun records w => d.write records.text w⟩

/-- The same on worlds of a kind that neither the clock nor a write leaves. -/
def within (P : W → Prop) (now : ∀ w, P w → P (d.now w).2)
    (write : ∀ text w, P w → P (d.write text w).2) : Disk { w : W // P w } where
  now w := ((d.now w.1).1, ⟨(d.now w.1).2, now w.1 w.2⟩)
  write text w := ((d.write text w.1).1, ⟨(d.write text w.1).2, write text w.1 w.2⟩)
  opened w := d.opened w.1
  opened_now w := d.opened_now w.1
  opened_write := by
    intro text w w' written
    obtain ⟨done, left⟩ := Prod.mk.inj written
    refine d.opened_write (Prod.ext done ?_)
    exact congrArg Subtype.val left

theorem textual : d.host.Textual := fun _ _ w same => congrArg (fun text => d.write text w) same

/-- What becomes of the file: after a success it holds the records, after a fault
nothing is known, and where saving was not attempted neither has changed. -/
def Filed (before after : Repository W) : Option Bool → Prop
  | some true => d.opened after.world = Records.stored after.records.text
  | some false => True
  | none => after.records = before.records ∧ d.opened after.world = d.opened before.world

variable {d} {before r : Repository W}

theorem filed_flush :
    d.Filed before (r.flush d.host).2 (Answer.savedBy (r.flush d.host).1) := by
  cases written : d.write r.records.text r.world with
  | mk fault w =>
    have saved : d.host.save r.records r.world = (fault, w) := written
    cases fault with
    | none =>
      simp only [Repository.flush, saved, Answer.savedBy]
      exact d.opened_write written
    | some fault =>
      simp only [Repository.flush, saved, Answer.savedBy]
      exact trivial

/-- A refusal comes before any change. -/
theorem filed_refusal {α : Type} (e : BatchError) (records : r.records = before.records)
    (opened : d.opened r.world = d.opened before.world) :
    d.Filed before r (Answer.savedBy (.error e : Except BatchError α)) := by
  cases e with
  | io fault => exact trivial
  | _ => exact ⟨records, opened⟩

theorem filed_run (o : Operation) (r : Repository W) :
    d.Filed r (o.run d.host r).2 (o.run d.host r).1.saved? := by
  cases o with
  | create job p =>
    simp only [Operation.run, Answer.saved?, Repository.createExecution]
    cases r.records.findOrMakeInstance job p with
    | error e => exact filed_refusal e rfl rfl
    | ok made =>
      simp only [Answer.savedBy_map]
      exact filed_flush
  | update e =>
    simp only [Operation.run, Answer.saved?, Repository.updateExecution]
    split
    · exact filed_flush
    · exact filed_refusal _ rfl rfl
  | addStep s =>
    simp only [Operation.run, Answer.saved?, Repository.addStep]
    split
    · exact filed_flush
    · exact filed_refusal _ rfl rfl
  | updateStep s =>
    simp only [Operation.run, Answer.saved?, Repository.updateStep]
    split
    · exact filed_flush
    · exact filed_refusal _ rfl (d.opened_now r.world)
  | last _ _ | has _ _ | lastStep _ _ | all => exact ⟨rfl, rfl⟩

end Disk

section Machines

variable {name : String} (plain : Files.PlainName name)

def Machine.disk : Disk { m : Machine // m.files.AtHome } where
  now m := (m.1.now.1, ⟨m.1.now.2, m.2⟩)
  write text m :=
    match written : m.1.files.write name text with
    | .error fault => (some fault, m)
    | .ok files => (none, ⟨{ m.1 with files }, (Files.read_write plain m.2 written).1⟩)
  opened m := m.1.openRecords name
  opened_now _ := rfl
  opened_write := by
    intro text m m' done
    split at done
    · cases done
    · rename_i files written
      cases done
      obtain ⟨_, there, read⟩ := Files.read_write plain m.2 written
      simp only [Machine.openRecords, there, if_true, read]
      rfl

/-- A machine with no such file opens no records. -/
theorem Machine.opened_disk_absent (m : { m : Machine // m.files.AtHome })
    (absent : m.1.files.entries.get? (Files.joined [name]) = none) :
    (Machine.disk plain).opened m = .ok .empty := by
  have missing : m.1.files.exists? name = false := by
    simp [Files.exists?, Files.look, Files.locate_plain plain m.2, Files.found?_plain, absent,
      bind, Except.bind, Except.toOption]
  simp only [Machine.disk, Machine.openRecords, missing, Bool.false_eq_true, if_false]

end Machines

structure Session (W : Type) where
  repository : Repository W
  /-- Was saving never attempted, or did it succeed the last time? -/
  saved : Bool

inductive Event where
  | call (o : Operation)
  /-- The repository is dropped, and one is opened on its file. -/
  | reopen

def Event.operations : List Event → List Operation
  | [] => []
  | .call o :: rest => o :: operations rest
  | .reopen :: rest => operations rest

namespace Session

variable {W : Type}

def fresh (w : W) : Session W := ⟨⟨.empty, w⟩, true⟩

def call (h : Host W) (o : Operation) (s : Session W) : Answer × Session W :=
  let done := o.run h s.repository
  (done.1, ⟨done.2, done.1.saved?.getD s.saved⟩)

/-- Operations one after the other on one repository. -/
def perform (h : Host W) : List Operation → Session W → List Answer × Session W
  | [], s => ([], s)
  | o :: rest, s =>
    let done := s.call h o
    let later := perform h rest done.2
    (done.1 :: later.1, later.2)

/-- The same with reopening in between, wherever the last attempt to save succeeded
or there was none. Where it failed a reopening is passed over. -/
def run (d : Disk W) : List Event → Session W → Except BatchError (List Answer × Session W)
  | [], s => .ok ([], s)
  | .call o :: rest, s =>
    let done := s.call d.host o
    (run d rest done.2).map fun later => (done.1 :: later.1, later.2)
  | .reopen :: rest, s =>
    if s.saved then
      match d.opened s.repository.world with
      | .error e => .error e
      | .ok records => run d rest ⟨⟨records, s.repository.world⟩, true⟩
    else run d rest s

theorem nextId_perform (h : Host W) (os : List Operation) (s : Session W) :
    s.repository.records.nextId ≤ (perform h os s).2.repository.records.nextId ∧
      (perform h os s).2.repository.records.nextId
        ≤ s.repository.records.nextId + 2 * os.length := by
  induction os generalizing s with
  | nil => exact ⟨Nat.le_refl _, Nat.le_refl _⟩
  | cons o rest ih =>
    have once := o.nextId_run h s.repository
    have later := ih (s.call h o).2
    simp only [perform, call, List.length_cons] at later ⊢
    omega

/-- Two sessions that differ in flags only, the first of which can be reopened. -/
structure Mirrors (d : Disk W) (s t : Session W) : Prop where
  repository : s.repository.clean = t.repository.clean
  saved : s.saved = t.saved
  storable : s.repository.records.Storable
  opened : s.saved = true → d.opened s.repository.world = .ok s.repository.records.clean

variable {d : Disk W} {s t : Session W}

theorem Mirrors.call (clock : ∀ w, (d.now w).1.InPlace) (mirrors : Mirrors d s t)
    {o o' : Operation} (same : o.clean = o'.clean) (brought : o.Storable)
    (word : Json.IsWord (t.call d.host o').2.repository.records.nextId) :
    (s.call d.host o).1.clean = (t.call d.host o').1.clean ∧
      Mirrors d (s.call d.host o).2 (t.call d.host o').2 := by
  have alike := Operation.run_alike d.textual same mirrors.repository
  have count : (o.run d.host s.repository).2.records.nextId
      = (o'.run d.host t.repository).2.records.nextId := by
    have counted := congrArg (fun r : Repository W => r.records.nextId) alike.2
    exact counted
  have storable :=
    Operation.storable_run (h := d.host) clock mirrors.storable brought (count ▸ word)
  have saved : (o.run d.host s.repository).1.saved? = (o'.run d.host t.repository).1.saved? := by
    rw [← Answer.saved?_clean, alike.1, Answer.saved?_clean]
  have filed := Disk.filed_run (d := d) o s.repository
  refine ⟨alike.1, alike.2, ?_, storable, ?_⟩
  · simp only [Session.call, saved, mirrors.saved]
  · intro kept
    simp only [Session.call] at kept ⊢
    cases tried : (o.run d.host s.repository).1.saved? with
    | none =>
      -- Nothing was written, so the file still holds what it held.
      rw [tried] at filed kept
      rw [filed.2, filed.1]
      exact mirrors.opened kept
    | some success =>
      rw [tried] at filed kept
      cases (kept : success = true)
      exact filed.trans (Records.stored_text storable)

theorem Mirrors.reopened (mirrors : Mirrors d s t) (saved : s.saved = true) :
    Mirrors d ⟨⟨s.repository.records.clean, s.repository.world⟩, true⟩ t where
  repository := by
    refine Eq.trans ?_ mirrors.repository
    simp only [Repository.clean, Records.clean_clean]
  saved := saved ▸ mirrors.saved
  storable := mirrors.storable.clean
  opened _ := by
    rw [Records.clean_clean]
    exact mirrors.opened saved

theorem Mirrors.run (clock : ∀ w, (d.now w).1.InPlace) {events : List Event}
    {os : List Operation}
    (same : (Event.operations events).map Operation.clean = os.map Operation.clean)
    (brought : ∀ o ∈ Event.operations events, o.Storable) (mirrors : Mirrors d s t)
    (word : Json.IsWord (perform d.host os t).2.repository.records.nextId) :
    ∃ answers last, Session.run d events s = .ok (answers, last) ∧
      answers.map Answer.clean = (perform d.host os t).1.map Answer.clean ∧
      Mirrors d last (perform d.host os t).2 := by
  -- Both sessions move at a call; only the first one does at a reopening.
  induction events generalizing os s t with
  | nil =>
    cases os with
    | nil => exact ⟨[], s, rfl, rfl, mirrors⟩
    | cons o rest => cases same
  | cons event rest ih =>
    cases event with
    | call o =>
      cases os with
      | nil => cases same
      | cons o' later =>
        obtain ⟨first, others⟩ := List.cons.inj same
        have within := (nextId_perform d.host later (t.call d.host o').2).1
        obtain ⟨answered, stepped⟩ := mirrors.call clock first (brought o List.mem_cons_self)
          (Nat.lt_of_le_of_lt within word)
        obtain ⟨answers, last, ran, answered', ended⟩ :=
          ih others (fun o ho => brought o (List.mem_cons_of_mem _ ho)) stepped word
        refine ⟨(s.call d.host o).1 :: answers, last, ?_, ?_, ended⟩
        · simp only [Session.run, ran, Except.map]
        · simp only [perform, List.map_cons, answered, answered']
    | reopen =>
      cases saved : s.saved with
      | true =>
        obtain ⟨answers, last, ran, rest⟩ := ih same brought (mirrors.reopened saved) word
        refine ⟨answers, last, ?_, rest⟩
        simp only [Session.run, saved, if_true, mirrors.opened saved, ran]
      | false =>
        obtain ⟨answers, last, ran, rest⟩ := ih same brought mirrors word
        refine ⟨answers, last, ?_, rest⟩
        simp only [Session.run, saved, Bool.false_eq_true, if_false, ran]

/-- The end of 2016, in its leap second. -/
def leapSecond : Instant := ⟨1483228799, 1500000000, by decide⟩

/-- A tenth below zero, which has no exact double. -/
def belowZero : Double := .ofRatio true 1 10

/-- An execution with unsaved values of many kinds in its context. -/
def noted : JobExecution :=
  { JobExecution.create 2 ⟨1, "load", ""⟩ .empty .epoch with
    status := .failed
    context := (((Context.empty.put "note" (.string "half\n\"way\"")).put "rate"
      (.double belowZero)).put "since" (.date leapSecond)).put "child"
        (.parameters (KeyMap.empty.insert "rate" ⟨.double belowZero, false⟩))
    endTime := some leapSecond
    failures := [⟨.childExecution, "boom\t\\", leapSecond⟩] }

theorem store_json_plain : Files.PlainName "store.json" := by
  constructor <;> decide

end Session

end NestedBatch
