import RegisterMachine.Code.Instruction
import RegisterMachine.Code.Names
import RegisterMachine.Code.Notes

/-!
Programs: functions of distinct names, each a list of instructions, with the notes attached to
them. A function is referred to by its position; a position taken from one program may be used
on another, where it names another function or none.

A listing shows the functions one after the other with a blank line between them, each with a heading
and one numbered line per instruction. A label stands out to the left of the instructions.
-/

namespace RegisterMachine

structure Routine where
  name : String
  body : List Instruction
  notes : Notes := {}
deriving DecidableEq, Repr, Inhabited

namespace Routine

/-- One more than the highest register that an instruction mentions, as a word of 64 bits: for the
largest word it wraps around, and the function has no registers at all. -/
def registerCount (r : Routine) : Nat :=
  match (r.body.flatMap Instruction.registers).max? with
  | some highest => if highest + 1 < UInt64.size then highest + 1 else 0
  | none => 0

section Counting

variable {r : Routine} {count : Nat} {q : Register}

theorem registerCount_eq_succ {highest : Register}
    (most : (r.body.flatMap Instruction.registers).max? = some highest)
    (below : highest < UInt64.size - 1) : r.registerCount = highest + 1 := by
  rw [registerCount, most]
  exact if_pos (Nat.add_lt_of_lt_sub below)

theorem registerCount_eq_toNat {highest : UInt64}
    (most : (r.body.flatMap Instruction.registers).max? = some highest.toNat) :
    r.registerCount = (highest + 1).toNat := by
  have added : (highest + 1).toNat = (highest.toNat + 1) % UInt64.size := UInt64.toNat_add highest 1
  rw [registerCount, most, added]
  dsimp only
  split
  · next fits => exact (Nat.mod_eq_of_lt fits).symm
  · next wraps =>
    have largest : highest.toNat + 1 = UInt64.size :=
      Nat.le_antisymm highest.toNat_lt_size (Nat.not_lt.mp wraps)
    rw [largest, Nat.mod_self]

theorem registerCount_lt (r : Routine) : r.registerCount < UInt64.size := by
  unfold registerCount
  split
  · split
    · assumption
    · decide
  · decide

/-- A function has every register that it mentions, or none because it mentions the largest word. -/
theorem lt_registerCount_or (mentioned : q ∈ r.body.flatMap Instruction.registers) :
    q < r.registerCount ∨
      r.registerCount = 0 ∧ ∃ q ∈ r.body.flatMap Instruction.registers, UInt64.size - 1 ≤ q := by
  cases most : (r.body.flatMap Instruction.registers).max? with
  | none => simp [List.max?_eq_none_iff.mp most] at mentioned
  | some highest =>
    obtain ⟨listed, largest⟩ := List.max?_eq_some_iff.mp most
    by_cases below : highest < UInt64.size - 1
    · rw [registerCount_eq_succ most below]
      exact .inl (Nat.lt_succ_of_le (largest q mentioned))
    · have wraps : ¬highest + 1 < UInt64.size := fun fits => below (Nat.lt_sub_of_add_lt fits)
      refine .inr ⟨?_, highest, listed, Nat.not_lt.mp below⟩
      rw [registerCount, most]
      exact if_neg wraps

theorem registerCount_le_iff
    (numbered : ∀ q ∈ r.body.flatMap Instruction.registers, q < UInt64.size - 1) :
    r.registerCount ≤ count ↔ ∀ q ∈ r.body.flatMap Instruction.registers, q < count := by
  cases most : (r.body.flatMap Instruction.registers).max? with
  | none => simp [registerCount, List.max?_eq_none_iff.mp most]
  | some highest =>
    obtain ⟨mentioned, largest⟩ := List.max?_eq_some_iff.mp most
    rw [registerCount_eq_succ most (numbered highest mentioned)]
    exact ⟨fun enough q named => Nat.lt_of_le_of_lt (largest q named) enough,
      fun all => all highest mentioned⟩

end Counting

end Routine

abbrev RoutineId := Nat

structure Program where
  routines : List Routine
  notes : Notes := {}
deriving DecidableEq, Repr, Inhabited

namespace Program

def entry : String := "main"

/-- Names must be distinct; the first repeated one is reported. -/
def ofRoutines (routines : List Routine) : Except Fault Program :=
  match repeated? (routines.map Routine.name) with
  | some name => .error (.duplicateRoutine name)
  | none => .ok { routines }

def find (p : Program) (name : String) : Except Fault RoutineId :=
  match p.routines.findIdx? (·.name == name) with
  | some i => .ok i
  | none => .error (.unknownRoutine name)

def routine (p : Program) (id : RoutineId) : Except Fault Routine :=
  match p.routines[id]? with
  | some r => .ok r
  | none => .error (.foreignRoutine id p.routines.length)

def get (p : Program) (name : String) : Except Fault Routine := p.find name >>= p.routine

def registers (p : Program) : List Register :=
  p.routines.flatMap fun r => r.body.flatMap Instruction.registers

def fetch? (p : Program) (id : RoutineId) (index : Nat) : Option Instruction :=
  p.routines[id]?.bind fun r => r.body[index]?

theorem find_eq_error_iff {p : Program} {name : String} {e : Fault} :
    p.find name = .error e ↔ e = .unknownRoutine name ∧ ∀ r ∈ p.routines, r.name ≠ name := by
  unfold find
  cases found : p.routines.findIdx? (·.name == name) with
  | some id =>
    obtain ⟨inside, named, -⟩ := List.findIdx?_eq_some_iff_getElem.mp found
    have present : ¬∀ r ∈ p.routines, r.name ≠ name := fun absent =>
      absent p.routines[id] (List.getElem_mem inside) (beq_iff_eq.mp named)
    simp [present]
  | none =>
    have absent : ∀ r ∈ p.routines, r.name ≠ name := by
      simpa using List.findIdx?_eq_none_iff.mp found
    exact ⟨fun same => ⟨(Except.error.inj same).symm, absent⟩,
      fun ⟨same, _⟩ => congrArg Except.error same.symm⟩

end Program

theorem find_eq_ok {p : Program} {name : String} {id : RoutineId} (found : p.find name = .ok id) :
    ∃ r, p.routine id = .ok r ∧ r.name = name := by
  unfold Program.find at found
  split at found
  · next k first =>
    cases found
    obtain ⟨inside, named, -⟩ := List.findIdx?_eq_some_iff_getElem.mp first
    refine ⟨p.routines[id], ?_, by simpa using named⟩
    simp [Program.routine, List.getElem?_eq_getElem inside]
  · cases found

section Listing

def labelOpcode : String := "jump-label"

def Instruction.label? (i : Instruction) : Option String :=
  if i.opcode = labelOpcode then i.name.toOption else none

def padLeft (width : Nat) (s : String) : String :=
  String.ofList (List.replicate (width - s.length) ' ') ++ s

namespace Routine

def line (index : Nat) (i : Instruction) : String :=
  let number := "  " ++ padLeft 4 (toString index)
  match i.label? with
  | some label => number ++ " " ++ label ++ ":\n"
  | none => number ++ "     " ++ i.text ++ "\n"

def listing (r : Routine) : String :=
  s!"fn {r.name} (registers: {r.registerCount}):\n" ++
    String.join (r.body.mapIdx line)

end Routine

def Program.listing (p : Program) : String :=
  "\n".intercalate (p.routines.map Routine.listing)

end Listing

end RegisterMachine
