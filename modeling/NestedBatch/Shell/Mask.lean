import NestedBatch.Text.Numeral

/-! The mask of permissions that new files do not get. It is written in octal, or
as the permissions that are left to the owner, the group and all others. -/
namespace NestedBatch.Shell

/-- The permissions that are left to the owner, the group and all others, each made of
four for reading, two for writing and one for running. -/
structure Grants where
  owner : Nat
  group : Nat
  others : Nat
  deriving DecidableEq

namespace Grants

def ofMask (mask : Nat) : Grants := ⟨7 - mask / 64 % 8, 7 - mask / 8 % 8, 7 - mask % 8⟩

def mask (g : Grants) : Nat := (7 - g.owner) * 64 + (7 - g.group) * 8 + (7 - g.others)

def allows (permission n : Nat) : Bool := n / permission % 2 = 1

def letters (n : Nat) : String :=
  String.join ([(4, "r"), (2, "w"), (1, "x")].filterMap fun p =>
    if allows p.1 n then some p.2 else none)

def text (g : Grants) : String :=
  "u=" ++ letters g.owner ++ ",g=" ++ letters g.group ++ ",o=" ++ letters g.others

def ofLetter? (g : Grants) (c : Char) : Option Nat :=
  if c = 'r' then some 4
  else if c = 'w' then some 2
  else if c = 'x' ∨ c = 'X' then some 1
  else if c = 's' ∨ c = 't' then some 0
  else if c = 'u' then some g.owner
  else if c = 'g' then some g.group
  else if c = 'o' then some g.others
  else none

/-- Adds permissions to those of the parties named, takes them away, or sets them. -/
def change (g : Grants) (parties : List Char) (operation : Char) (bits : Nat) : Grants :=
  let new (old : Nat) : Nat :=
    if operation = '+' then old ||| bits
    else if operation = '-' then old &&& (7 - bits)
    else bits
  let pick (party : Char) (old : Nat) : Nat :=
    if parties.isEmpty || parties.contains party || parties.contains 'a' then new old else old
  ⟨pick 'u' g.owner, pick 'g' g.group, pick 'o' g.others⟩

def isOperation (c : Char) : Bool := c = '+' || c = '-' || c = '='

/-- Carries out a mode: clauses with commas between them, each made of parties and of
operations with their permissions. -/
def apply (g : Grants) : Nat → List Char → List Char → Option Grants
  | 0, _, _ => none
  | _, _, [] => some g
  | fuel + 1, parties, c :: rest =>
    if c = ',' then apply g fuel [] rest
    else if isOperation c then
      let permissions := rest.takeWhile fun d => (g.ofLetter? d).isSome
      let bits := (permissions.filterMap g.ofLetter?).foldl (· ||| ·) 0
      let after := rest.drop permissions.length
      if after.head?.all fun d => d = ',' || isOperation d then
        apply (g.change parties c bits) fuel parties after
      else none
    else
      let parties := (c :: rest).takeWhile "ugoa".toList.contains
      let after := (c :: rest).drop parties.length
      if !parties.isEmpty && after.head?.all isOperation then apply g fuel parties after
      else none

end Grants

def maskText (mask : Nat) : String :=
  let digits := Nat.toDigits 8 mask
  String.ofList (List.replicate (4 - digits.length) '0' ++ digits)

end NestedBatch.Shell
