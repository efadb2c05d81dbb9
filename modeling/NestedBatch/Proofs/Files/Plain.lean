import Mathlib.Data.String.Basic
import NestedBatch.Files.Basic

/-! Files directly in the working directory: where their names lead, and that
what was written is what is read. -/
namespace NestedBatch.Files

section Slashes

theorem splitOnAux_of_absent : ∀ (later earlier : List Char), '/' ∉ later →
    String.splitOnAux (String.ofList (earlier ++ later)) "/" 0 ⟨String.utf8Len earlier⟩ 0 []
      = [String.ofList (earlier ++ later)] := by
  intro later
  induction later with
  | nil =>
    intro earlier _
    rw [String.splitOnAux, if_pos ((String.atEnd_of_valid earlier []).2 rfl)]
    have whole := String.extract_of_valid [] earlier []
    simpa using whole
  | cons c rest ih =>
    intro earlier absent
    have inside : ¬ String.Pos.Raw.atEnd (String.ofList (earlier ++ c :: rest))
        ⟨String.utf8Len earlier⟩ = true := by
      rw [String.atEnd_of_valid]
      exact List.cons_ne_nil c rest
    have slash : String.Pos.Raw.get "/" 0 = '/' := rfl
    have other : (String.Pos.Raw.get (String.ofList (earlier ++ c :: rest))
        ⟨String.utf8Len earlier⟩ == String.Pos.Raw.get "/" 0) = false := by
      rw [String.get_of_valid, slash]
      exact beq_eq_false_iff_ne.2 fun same => absent (same ▸ List.mem_cons_self)
    have next := String.next_of_valid earlier c rest
    have tail := ih (earlier ++ [c]) fun later => absent (List.mem_cons_of_mem c later)
    rw [List.append_assoc, List.singleton_append, String.utf8Len_append, String.utf8Len_cons,
      String.utf8Len_nil, Nat.zero_add] at tail
    rw [String.splitOnAux, if_neg inside, other, if_neg Bool.false_ne_true]
    exact (congrArg (fun p => String.splitOnAux _ "/" 0 p 0 []) next).trans tail

variable {name : String} (absent : '/' ∉ name.toList)

include absent

theorem splitOn_of_absent : name.splitOn "/" = [name] := by
  have whole := splitOnAux_of_absent name.toList [] absent
  rw [List.nil_append, String.ofList_toList] at whole
  rw [String.splitOn, if_neg (by decide)]
  exact whole

theorem startsWith_of_absent : name.startsWith "/" = false := by
  rw [Bool.eq_false_iff, ne_eq, String.startsWith_string_iff]
  exact fun front => absent (front.subset List.mem_cons_self)

theorem endsWith_of_absent : name.endsWith "/" = false := by
  rw [Bool.eq_false_iff, ne_eq]
  intro back
  have suffix := String.Slice.endsWith_string_iff.1 back
  rw [String.copy_toSlice] at suffix
  exact absent (suffix.subset List.mem_cons_self)

end Slashes

/-- A name for a file in the working directory itself. -/
structure PlainName (name : String) : Prop where
  unslashed : '/' ∉ name.toList
  valid : '\x00' ∉ name.toList
  notEmpty : name ≠ ""
  notDot : name ≠ "."
  notDots : name ≠ ".."
  short : name.utf8ByteSize ≤ longestPart

def AtHome (f : Files) : Prop := f.here = home

variable {f g : Files} {name text : String}

theorem found?_home : f.found? home = some .directory := rfl

theorem below?_home : below? (home ++ [name]) = some [name] := by
  simp [below?, home]

theorem found?_plain :
    f.found? (home ++ [name]) = (f.entries.get? (joined [name])).map fun
      | .file content => .file content
      | .directory => .directory := by
  cases filed : f.entries.get? (joined [name]) with
  | none => simp [found?, below?_home, filed]
  | some entry => cases entry <;> simp [found?, below?_home, filed]

theorem locate_plain (plain : PlainName name) (atHome : f.AtHome) :
    f.locate name = .ok ⟨home ++ [name], true, false⟩ := by
  have parts : (name.splitOn "/").filter (· ≠ "") = [name] := by
    rw [splitOn_of_absent plain.unslashed]
    simp [plain.notEmpty]
  have short : ¬ longestName < name.utf8ByteSize :=
    Nat.not_lt.2 (plain.short.trans (by decide))
  have part : ¬ longestPart < name.utf8ByteSize := Nat.not_lt.2 plain.short
  have rooted : home.isEmpty = false := rfl
  have walked : f.walk home [name] = .ok (home ++ [name]) := by
    simp [walk, found?_home, plain.notDot, plain.notDots, part, rooted]
  have valid : name.toList.contains '\x00' = false := by simpa using plain.valid
  have here : f.here = home := atHome
  simp only [locate, valid, plain.notEmpty, short, parts, startsWith_of_absent plain.unslashed,
    endsWith_of_absent plain.unslashed, here]
  simp [walked, Except.map, plain.notDot, plain.notDots]

theorem writable_plain (plain : PlainName name) (atHome : f.AtHome) {place : List String}
    (ok : f.writable name = .ok place) : place = home ++ [name] := by
  simp only [writable, locate_plain plain atHome, bind, Except.bind] at ok
  simp only [Bool.not_true, Bool.false_or, Bool.false_eq_true, if_false] at ok
  split at ok
  · contradiction
  · contradiction
  · exact (Except.ok.inj ok).symm
  · split at ok
    · contradiction
    · split at ok
      · exact (Except.ok.inj ok).symm
      · contradiction

theorem write_plain (plain : PlainName name) (atHome : f.AtHome)
    (written : f.write name text = .ok g) : g = f.put [name] (.file text.toUTF8) := by
  simp only [write, bind, Except.bind] at written
  split at written
  · contradiction
  · rename_i place ok
    have there : f.found? (home ++ [name]) ≠ some .full := by
      rw [found?_plain]
      cases f.entries.get? (joined [name]) with
      | none => exact nofun
      | some entry => cases entry <;> exact nofun
    rw [writable_plain plain atHome ok, writeAt, if_neg there, below?_home] at written
    exact (Except.ok.inj written).symm

theorem fromUTF8?_toByteArray (s : String) : String.fromUTF8? s.toByteArray = some s := by
  unfold String.fromUTF8?
  rw [dif_pos s.isValidUTF8]
  rfl

/-- A text that is filed is there, and is what is read. -/
theorem read_filed (plain : PlainName name) (atHome : f.AtHome)
    (filed : f.entries.get? (joined [name]) = some (.file text.toUTF8)) :
    f.exists? name = true ∧ f.readText name = .ok text := by
  have found : f.found? (home ++ [name]) = some (.file text.toUTF8) := by
    rw [found?_plain, filed, Option.map_some]
  have look : f.look name = .ok (.file text.toUTF8) := by
    simp [look, locate_plain plain atHome, found, bind, Except.bind]
  constructor
  · simp [exists?, look, Except.toOption]
  · simp [readText, read, look, bind, Except.bind, fromUTF8?_toByteArray]

/-- A text that was written is there, and is what is read. -/
theorem read_write (plain : PlainName name) (atHome : f.AtHome)
    (written : f.write name text = .ok g) :
    g.AtHome ∧ g.exists? name = true ∧ g.readText name = .ok text := by
  have put := write_plain plain atHome written
  have home : g.AtHome := put ▸ atHome
  have filed : g.entries.get? (joined [name]) = some (.file text.toUTF8) := by
    rw [put, Files.put]
    simp
  exact ⟨home, read_filed plain home filed⟩

/-- Where no directory has its name, a file is written. -/
theorem write_free (plain : PlainName name) (atHome : f.AtHome)
    (free : f.entries.get? (joined [name]) ≠ some .directory) (text : String) :
    f.write name text = .ok (f.put [name] (.file text.toUTF8)) := by
  have parent : f.found? (home ++ [name]).dropLast = some .directory := by
    rw [List.dropLast_concat]
    exact found?_home
  have ok : f.writable name = .ok (home ++ [name]) := by
    simp only [writable, locate_plain plain atHome, bind, Except.bind, Bool.not_true,
      Bool.false_or, Bool.false_eq_true, if_false, parent, ne_eq, not_true_eq_false,
      below?_home, Option.isSome_some, if_true, found?_plain]
    cases there : f.entries.get? (joined [name]) with
    | none => rfl
    | some entry =>
      cases entry with
      | file content => rfl
      | directory => exact absurd there free
  have notFull : f.found? (home ++ [name]) ≠ some .full := by
    rw [found?_plain]
    cases f.entries.get? (joined [name]) with
    | none => exact nofun
    | some entry => cases entry <;> exact nofun
  simp only [write, ok, bind, Except.bind, writeAt, if_neg notFull, below?_home]

end NestedBatch.Files
