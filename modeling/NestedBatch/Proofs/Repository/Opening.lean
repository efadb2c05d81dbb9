import NestedBatch.Proofs.Records.Reread
import NestedBatch.Proofs.Repository.Reopening

/-! Which stores can be opened. Whatever was brought into the records by then, a file that
was written without a fault is opened exactly if every double in the records is finite. -/
namespace NestedBatch

theorem Records.stored_eq_ok {r r' : Records} :
    stored r.text = .ok r' ↔ r.reread = some r' := by
  simp only [stored, ofText?_text]
  cases r.reread <;> simp

theorem Records.opens_iff (r : Records) :
    (∃ r', stored r.text = .ok r') ↔ r.Fits ∧ r.AllFinite := by
  simp only [stored_eq_ok, ← isSome_reread, Option.isSome_iff_exists]

namespace Session

variable {W : Type} {d : Disk W} {s : Session W}

/-- Where the file was last written without a fault, it holds what is in memory: as it
was written, or as it was opened and not written since. -/
def Filed (d : Disk W) (s : Session W) : Prop :=
  s.saved = true →
    d.opened s.repository.world = Records.stored s.repository.records.text ∨
      d.opened s.repository.world = .ok s.repository.records ∧
        s.repository.records.Fits ∧ s.repository.records.AllFinite

theorem filed_fresh {w : W} (missing : d.opened w = .ok .empty) : Filed d (fresh w) := by
  intro _
  refine Or.inr ⟨missing, ?_, ?_⟩
  · constructor
    · exact Nat.two_pow_pos 64
    all_goals exact List.forall_mem_nil _
  · exact ⟨List.forall_mem_nil _, List.forall_mem_nil _⟩

theorem Filed.call (filed : Filed d s) (o : Operation) : Filed d (s.call d.host o).2 := by
  intro saved
  have written := Disk.filed_run (d := d) o s.repository
  simp only [Session.call] at saved ⊢
  cases tried : (o.run d.host s.repository).1.saved? with
  | none =>
    rw [tried] at written saved
    rw [written.2, written.1]
    exact filed saved
  | some success =>
    rw [tried] at written saved
    cases (saved : success = true)
    exact Or.inl written

theorem Filed.reopened {records : Records} (filed : Filed d s) (saved : s.saved = true)
    (opened : d.opened s.repository.world = .ok records) :
    Filed d ⟨⟨records, s.repository.world⟩, true⟩ := by
  intro _
  rcases filed saved with written | ⟨same, fits, finite⟩
  · obtain ⟨fits, finite⟩ := Records.sound_of_reread
      (Records.stored_eq_ok.1 (written.symm.trans opened))
    exact Or.inr ⟨opened, fits, finite⟩
  · cases same.symm.trans opened
    exact Or.inr ⟨opened, fits, finite⟩

theorem Filed.run {events : List Event} {answers : List Answer} {last : Session W}
    (filed : Filed d s) (ran : Session.run d events s = .ok (answers, last)) : Filed d last := by
  induction events generalizing s answers with
  | nil =>
    cases ran
    exact filed
  | cons event rest ih =>
    cases event with
    | call o =>
      simp only [Session.run] at ran
      cases later : Session.run d rest (s.call d.host o).2 with
      | error e =>
        rw [later] at ran
        cases ran
      | ok ended =>
        rw [later] at ran
        cases ran
        exact ih (filed.call o) later
    | reopen =>
      simp only [Session.run] at ran
      split at ran
      · rename_i saved
        split at ran
        · cases ran
        · rename_i records opened
          exact ih (filed.reopened saved opened) ran
      · exact ih filed ran

/-- A repository starts empty on a file that is not there; operations of any kind change
it, and it is reopened now and then. Where the file was last written without a fault, it
is opened exactly if every double in the records is finite. Numbers are words of 64 bits. -/
theorem opens_iff_finite {w : W} (missing : d.opened w = .ok .empty) {events : List Event}
    {answers : List Answer} {last : Session W} (ran : run d events (fresh w) = .ok (answers, last))
    (saved : last.saved = true) (fits : last.repository.records.Fits) :
    (∃ records, d.opened last.repository.world = .ok records) ↔
      last.repository.records.AllFinite := by
  rcases (filed_fresh missing).run ran saved with written | ⟨opened, _, finite⟩
  · rw [written, Records.opens_iff]
    exact and_iff_right fits
  · exact iff_of_true ⟨_, opened⟩ finite

section Measuring

variable {name : String} (plain : Files.PlainName name)

/-- Where no directory has the name of the store, it is written. -/
theorem flush_machine {m : { m : Machine // m.files.AtHome }}
    (free : m.1.files.entries.get? (Files.joined [name]) ≠ some .directory) (records : Records) :
    ∃ m' : { m : Machine // m.files.AtHome },
      Repository.flush (Machine.disk plain).host ⟨records, m⟩ = (.ok (), ⟨records, m'⟩) ∧
        m'.1.files.entries.get? (Files.joined [name]) ≠ some .directory := by
  have written := Files.write_free plain m.2 free records.text
  have saved : ∃ m', (Machine.disk plain).host.save records m = (none, m') ∧
      m'.1.files = m.1.files.put [name] (.file records.text.toUTF8) := by
    simp only [Disk.host, Machine.disk]
    split
    · rename_i fault refused
      cases refused.symm.trans written
    · rename_i files done
      cases done.symm.trans written
      exact ⟨_, rfl, rfl⟩
  obtain ⟨m', saved, files⟩ := saved
  refine ⟨m', by simp only [Repository.flush, saved], ?_⟩
  rw [files]
  simp [Files.put]

/-- An execution with a double in its context. -/
def measured (d : Double) : JobExecution :=
  { JobExecution.create 2 ⟨1, "load", Parameters.jobKey .empty⟩ .empty .epoch with
    context := Context.empty.put "ratio" (.double d) }

/-- What is left of making an execution and recording that double. -/
def measuring (d : Double) : Session { m : Machine // m.files.AtHome } :=
  (perform (Machine.disk store_json_plain).host
    [.create "load" .empty, .update (measured d)]
    (fresh ⟨Machine.boot .empty .empty, rfl⟩)).2

theorem run_measuring (d : Double) :
    ∃ answers, run (Machine.disk store_json_plain)
      [.call (.create "load" .empty), .call (.update (measured d))]
      (fresh ⟨Machine.boot .empty .empty, rfl⟩) = .ok (answers, measuring d) :=
  ⟨_, rfl⟩

/-- The records in between. -/
def loaded : Records :=
  ⟨2, [⟨1, "load", Parameters.jobKey .empty⟩],
    [.create 2 ⟨1, "load", Parameters.jobKey .empty⟩ .empty
      (Machine.boot .empty .empty).now.1], []⟩

theorem measuring_eq (d : Double) : ∃ now m, measuring d =
    ⟨⟨loaded.putExecution { measured d with lastUpdated := now }, m⟩, true⟩ := by
  obtain ⟨m, flushed, free⟩ := flush_machine store_json_plain
    (m := ⟨(Machine.boot .empty .empty).now.2, rfl⟩) nofun loaded
  obtain ⟨m', flushed', _⟩ := flush_machine store_json_plain (m := ⟨m.1.now.2, m.2⟩) free
    (loaded.putExecution { measured d with lastUpdated := m.1.now.1 })
  have created : Repository.createExecution (Machine.disk store_json_plain).host "load" .empty
      ⟨.empty, ⟨Machine.boot .empty .empty, rfl⟩⟩ = (.ok loaded.executions[0], ⟨loaded, m⟩) :=
    congrArg (fun saved : Except BatchError Unit × Repository _ =>
      (saved.1.map fun _ => loaded.executions[0], saved.2)) flushed
  have updated : Repository.updateExecution (Machine.disk store_json_plain).host (measured d)
      ⟨loaded, m⟩ = (.ok (), { measured d with lastUpdated := m.1.now.1 },
        ⟨loaded.putExecution { measured d with lastUpdated := m.1.now.1 }, m'⟩) :=
    congrArg (fun saved : Except BatchError Unit × Repository _ =>
      (saved.1, { measured d with lastUpdated := m.1.now.1 }, saved.2)) flushed'
  refine ⟨m.1.now.1, m', ?_⟩
  simp only [measuring, perform, Session.call, fresh, Operation.run, created, updated]
  rfl

theorem executions_measuring (d : Double) : ∃ now,
    (measuring d).repository.records = ⟨2, loaded.instances,
      [{ measured d with lastUpdated := now }], []⟩ := by
  obtain ⟨now, m, eq⟩ := measuring_eq d
  rw [eq]
  exact ⟨now, rfl⟩

theorem fits_measuring (d : Double) : (measuring d).repository.records.Fits := by
  obtain ⟨now, records⟩ := executions_measuring d
  have word : ∀ n, n ≤ 2 → Json.IsWord n := fun n small => Nat.lt_of_le_of_lt small (by decide)
  rw [records]
  constructor
  · exact word 2 (by decide)
  · exact List.forall_mem_singleton.2 (word 1 (by decide))
  · refine List.forall_mem_singleton.2 ⟨?_, ?_, List.forall_mem_nil _⟩
    · exact word 2 (by decide)
    · exact word 1 (by decide)
  · exact List.forall_mem_nil _

theorem allFinite_measuring (d : Double) :
    (measuring d).repository.records.AllFinite ↔ d.isFinite = true := by
  obtain ⟨now, records⟩ := executions_measuring d
  have context : (Context.empty.put "ratio" (.double d)).AllFinite ↔ d.isFinite = true :=
    List.forall_mem_singleton
  rw [records, ← context]
  constructor
  · intro finite
    exact (finite.executions _ (List.mem_singleton_self _)).context
  · intro finite
    refine ⟨List.forall_mem_singleton.2 ⟨?_, finite, ?_⟩, List.forall_mem_nil _⟩
    · exact List.forall_mem_nil _
    · exact List.forall_mem_nil _

theorem saved_measuring (d : Double) : (measuring d).saved = true := by
  obtain ⟨now, m, eq⟩ := measuring_eq d
  rw [eq]

end Measuring

/-- A tenth below zero can be recorded. -/
theorem tenth_opened : ∃ records, (Machine.disk store_json_plain).opened
    (measuring belowZero).repository.world = .ok records := by
  obtain ⟨answers, ran⟩ := run_measuring belowZero
  refine (opens_iff_finite ?_ ran (saved_measuring _) (fits_measuring _)).2 ?_
  · exact Machine.opened_disk_absent store_json_plain ⟨Machine.boot .empty .empty, rfl⟩ rfl
  · exact (allFinite_measuring belowZero).2 (by decide +kernel)

/-- It is not so that every store can be opened: what is no number cannot be read. -/
theorem unopened_nan :
    ¬ ∀ {W : Type} (d : Disk W) (w : W), d.opened w = .ok .empty →
      ∀ (events : List Event) (answers : List Answer) (last : Session W),
        run d events (fresh w) = .ok (answers, last) → last.saved = true →
          last.repository.records.Fits →
            ∃ records, d.opened last.repository.world = .ok records := by
  intro opens
  have missing := Machine.opened_disk_absent store_json_plain
    ⟨Machine.boot .empty .empty, rfl⟩ rfl
  obtain ⟨answers, ran⟩ := run_measuring .nan
  have opened := opens _ _ missing _ _ _ ran (saved_measuring _) (fits_measuring _)
  have finite : (measuring .nan).repository.records.AllFinite := by
    rcases (filed_fresh missing).run ran (saved_measuring _) with written | ⟨_, _, finite⟩
    · rw [written] at opened
      exact ((Records.opens_iff _).1 opened).2
    · exact finite
  exact absurd ((allFinite_measuring .nan).1 finite) (by decide)

end Session

end NestedBatch
