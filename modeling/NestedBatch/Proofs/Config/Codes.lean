import NestedBatch.Config.Basic
import NestedBatch.Proofs.KeyMap
import NestedBatch.Proofs.Step.Command
import NestedBatch.Proofs.Text.Integer

/-! The exit codes that are configured for a child. Each is a text for an integer, and more
than one text may stand for the same. Of the entries for one integer only the last is left, so
that all entries take effect exactly if those for one integer are alike. -/
namespace NestedBatch

namespace CommandJob

variable {job : CommandJob} {code : Nat} {exit : String}

/-- An execution whose process ends with this code is completed, with this exit code. -/
def Completes (job : CommandJob) (code : Nat) (exit : String) : Prop :=
  ∀ (W : Type) (spawn : Spawner W) (e : JobExecution) (r : Repository W) (w : W),
    spawn (job.invocation e) r.world = (.ok (.exited code), w) →
      job.perform spawn e r
        = (.done, { e with status := .completed, exitStatus := .ofCode exit }, ⟨r.records, w⟩)

theorem completes_of_mapped (mapped : job.exitCodes.get? code = some exit) (failure : code ≠ 0) :
    job.Completes code exit := by
  intro W spawn e r w exited
  have reported : report job.exitCodes (.exited code) = (.completed, .ofCode exit) := by
    simp only [report, if_neg failure, mapped]
  rcases job.perform_cases spawn e r with ⟨_, _, _, raised, _⟩ | ⟨_, _, _, _, done, told, eq⟩
  · cases exited.symm.trans raised
  · cases exited.symm.trans done
    cases reported.symm.trans told
    exact eq

end CommandJob

namespace ChildConfig

variable {c : ChildConfig} {codes out : KeyMap Int String} {given : List (String × String)}
  {code exit : String} {n : Int}

/-- Can the text be read as the code of a process? -/
def IsCode (text : String) : Prop := ∃ n, Numeral.read .int (Text.trimBlanks text.toList) = .ok n

theorem readCodes_ok_iff (codes : KeyMap Int String) {given : List (String × String)} :
    (∃ read, readCodes codes given = .ok read) ↔ ∀ entry ∈ given, IsCode entry.1 := by
  induction given generalizing codes with
  | nil => simp [readCodes]
  | cons entry rest ih =>
    rw [readCodes, List.forall_mem_cons, IsCode]
    cases Numeral.read .int (Text.trimBlanks entry.1.toList) with
    | error fault => simp
    | ok n =>
      rw [ih]
      simp

theorem toJob_ok_iff {c : ChildConfig} :
    (∃ job, c.toJob = .ok job) ↔
      c.command ≠ [] ∧ ∀ entry ∈ c.exitCodes.entries, IsCode entry.1 := by
  rw [← readCodes_ok_iff .empty, toJob, parsedCodes]
  cases c.command with
  | nil => simp
  | cons program arguments =>
    cases readCodes .empty c.exitCodes.entries <;> simp

theorem toJob_codes {c : ChildConfig} {job : CommandJob} (made : c.toJob = .ok job) :
    c.parsedCodes = .ok job.exitCodes := by
  simp only [ChildConfig.toJob] at made
  split at made
  · cases made
  · split at made
    · cases made
    · rename_i codes read
      cases made
      exact read

/-- The text stands for an integer of 32 bits, in decimal, blanks around it apart. -/
def Denotes (code : String) (n : Int) : Prop :=
  Numeral.Decimal (Text.trimBlanks code.toList) n ∧ Span.int.Has n

theorem isCode_iff : IsCode code ↔ ∃ n, Denotes code n :=
  exists_congr fun _ => Numeral.read_eq_ok

def number? (code : String) : Option Int :=
  (Numeral.read .int (Text.trimBlanks code.toList)).toOption

theorem number?_eq_some : number? code = some n ↔ Denotes code n := by
  rw [Denotes, ← Numeral.read_eq_ok, number?]
  cases Numeral.read .int (Text.trimBlanks code.toList) <;> simp [Except.toOption]

theorem readCodes_cons {entry : String × String}
    (read : readCodes codes (entry :: given) = .ok out) :
    ∃ n, number? entry.1 = some n ∧ readCodes (codes.insert n entry.2) given = .ok out := by
  rw [readCodes] at read
  split at read
  · cases read
  · rename_i n number
    exact ⟨n, by rw [number?, number]; rfl, read⟩

theorem get?_readCodes (read : readCodes codes given = .ok out) (n : Int) :
    out.get? n = ((given.filter fun e => number? e.1 = some n).getLast?.map Prod.snd).or
      (codes.get? n) := by
  induction given generalizing codes with
  | nil =>
    cases read
    rfl
  | cons entry rest ih =>
    obtain ⟨m, number, later⟩ := readCodes_cons read
    rw [ih later, KeyMap.get?_insert, getLast?_filter_cons, number]
    -- A later entry for the number hides this one, and this one hides what was there before.
    cases (rest.filter fun e => decide (number? e.1 = some n)).getLast? with
    | some last => rfl
    | none => by_cases here : m = n <;> simp [here]

def entry? (c : ChildConfig) (n : Int) : Option (String × String) :=
  (c.exitCodes.entries.filter fun e => number? e.1 = some n).getLast?

theorem get?_parsedCodes (parsed : c.parsedCodes = .ok codes) (n : Int) :
    codes.get? n = (c.entry? n).map Prod.snd := by
  rw [get?_readCodes parsed, KeyMap.get?_empty, Option.or_none]
  rfl

theorem entry?_of_get? (there : c.exitCodes.get? code = some exit) (denotes : Denotes code n) :
    ∃ e, c.entry? n = some e ∧ c.exitCodes.get? e.1 = some e.2 ∧ Denotes e.1 n := by
  obtain ⟨e, last, there', number⟩ := KeyMap.getLast?_filter_of_get?
    (fun e => number? e.1 = some n) there (decide_eq_true (number?_eq_some.2 denotes))
  exact ⟨e, last, there', number?_eq_some.1 (of_decide_eq_true number)⟩

/-- Entries whose texts stand for one integer have one exit code. -/
def IsUnambiguous (c : ChildConfig) : Prop :=
  ∀ code code' exit exit' n, c.exitCodes.get? code = some exit →
    c.exitCodes.get? code' = some exit' → Denotes code n → Denotes code' n → exit = exit'

/-- The integer is mapped to the exit code, and a process of a command with these codes that
ends with it is completed with that exit code. Zero is completed whatever it is mapped to. -/
structure TakesEffect (codes : KeyMap Int String) (n : Int) (exit : String) : Prop where
  mapped : codes.get? n = some exit
  completes : ∀ job : CommandJob, job.exitCodes = codes → ∀ code : Nat, n = code → code ≠ 0 →
    job.Completes code exit

theorem takesEffect_of_mapped (mapped : codes.get? n = some exit) : TakesEffect codes n exit := by
  refine ⟨mapped, ?_⟩
  rintro job rfl code rfl failure
  exact CommandJob.completes_of_mapped mapped failure

/-- The codes of a child can be read exactly if all of their texts stand for integers of 32
bits, and are then those of its command. Every entry takes effect exactly if no two of them,
for one integer, differ. -/
theorem codes_take_effect_iff (c : ChildConfig) :
    ((∃ codes, c.parsedCodes = .ok codes) ↔
        ∀ entry ∈ c.exitCodes.entries, ∃ n, Denotes entry.1 n) ∧
      ∀ codes, c.parsedCodes = .ok codes →
        (∀ job, c.toJob = .ok job → job.exitCodes = codes) ∧
          ((∀ code exit n, c.exitCodes.get? code = some exit → Denotes code n →
              TakesEffect codes n exit) ↔
            c.IsUnambiguous) := by
  constructor
  · simp only [← isCode_iff]
    exact readCodes_ok_iff .empty
  · intro codes parsed
    refine ⟨fun job made => Except.ok.inj ((toJob_codes made).symm.trans parsed), ?_⟩
    constructor
    · intro effective code code' exit exit' n there there' denotes denotes'
      have mapped := (effective code exit n there denotes).mapped
      have mapped' := (effective code' exit' n there' denotes').mapped
      exact Option.some.inj (mapped.symm.trans mapped')
    · intro unambiguous code exit n there denotes
      obtain ⟨e, last, there', denotes'⟩ := entry?_of_get? there denotes
      apply takesEffect_of_mapped
      rw [get?_parsedCodes parsed, last,
        unambiguous code e.1 exit e.2 n there there' denotes denotes']
      rfl

/-- Two texts for one code of a process. -/
def threes : ChildConfig :=
  { default with exitCodes := KeyMap.ofList [("3", "SKIPPED"), ("03", "LATE")] }

/-- Not every entry takes effect where all can be read: the first of two for one code is
dropped. -/
theorem entry_dropped :
    ¬ ∀ (c : ChildConfig) codes, c.parsedCodes = .ok codes → ∀ code exit n,
      c.exitCodes.get? code = some exit → Denotes code n → codes.get? n = some exit := by
  intro kept
  have parsed : threes.parsedCodes = .ok (KeyMap.ofList [(3, "SKIPPED")]) := rfl
  have there : threes.exitCodes.get? "03" = some "LATE" := by decide
  have denotes : Denotes "03" 3 := number?_eq_some.1 (by decide)
  exact absurd (kept threes _ parsed "03" "LATE" 3 there denotes) (by decide)

end ChildConfig

end NestedBatch
