import RegisterMachine.Machine.Execution
import RegisterMachine.Opcodes.Standard
import RegisterMachine.Proofs.Decoding

/-!
There and back. A program that was encoded decodes to itself without its notes, whatever follows its
bytes, and runs like a new program of the same functions; bytes that lack its end do not decode.
-/

namespace RegisterMachine

/-- All that shows of a run: the program as it was prepared, with the remarks about it, and each
step with the state behind it, failed steps and those after them too. -/
def Machine.course (m : Machine) (p : Program) (sink : Sink) (steps : Nat) :
    Preparation × Except Fault (List (Except Failure Bool × State)) :=
  match m.prepare.run { program := p } with
  | .error e s => (s, .error e)
  | .ok () s => (s, do
      let t ← m.start s.program sink
      pure (m.trace s.program true steps t))

namespace Wire

variable {p : Program}

/-- An encoded program decodes to its functions without notes, which is all that its bytes tell, and
runs on every machine as a program newly made of those functions. -/
theorem round_trip (buildable : p.Buildable) :
    ∃ q, decode (program p) = .ok q ∧
      q.routines.map (fun r => (r.name, r.body, r.registerCount)) =
        p.routines.map (fun r => (r.name, r.body, r.registerCount)) ∧
      (∀ r ∈ q.routines, r.registerCount < UInt64.size) ∧
      q.notes = {} ∧ (∀ r ∈ q.routines, r.notes = {}) ∧
      (∀ other : Program, other.Buildable → (program other = program p ↔ other.bare = p.bare)) ∧
      ∃ fresh, Program.ofRoutines (p.routines.map Routine.bare) = .ok fresh ∧
        ∀ (m : Machine) sink steps, m.course q sink steps = m.course fresh sink steps ∧
          m.run q sink steps = m.run fresh sink steps := by
  have decoded := decode_program buildable []
  rw [List.append_nil] at decoded
  have built : Program.ofRoutines (p.routines.map Routine.bare) = .ok p.bare :=
    Program.ofRoutines_eq_ok_iff.mpr ⟨p.names_bare ▸ buildable.distinct, rfl⟩
  refine ⟨p.bare, decoded, ?_, fun r _ => r.registerCount_lt, rfl, p.notes_bare,
    fun other also => ⟨?_, fun same => ?_⟩, p.bare, built, fun m sink steps => ⟨rfl, rfl⟩⟩
  · rw [Program.bare, List.map_map]
    rfl
  · exact bare_eq_of_program_eq buildable also
  · rw [← program_bare other, same, program_bare]

def assorted : Program where
  routines := [
    { name := "main"
      notes := ⟨[("labels", .labels [("a", 0)])]⟩
      body := [
        { opcode := "int-val", output := some 300, payload := .int Int32.minValue },
        { opcode := "long-val", output := some 18446744073709551614, payload := .long Int64.minValue },
        { opcode := "double-val", payload := .double ⟨0xfff8000000000001⟩ },
        { opcode := "bool-val", payload := .bool true },
        { opcode := "λ", inputs := [0, 128], payload := .name "имя" },
        { opcode := "obj-new", payload := .descriptor ⟨"点", ["x", ""]⟩ }] },
    { name := "", body := [] }]
  notes := ⟨[("author", .text "")]⟩

theorem assorted_round_trip :
    assorted.Buildable ∧ assorted.bare ≠ assorted ∧
      ∃ q, decode (program assorted) = .ok q ∧
        q.routines.map (fun r => (r.name, r.body, r.registerCount)) = [
          ("main", assorted.routines[0].body, 18446744073709551615), ("", [], 0)] ∧
        q.notes = {} ∧ (∀ r ∈ q.routines, r.notes = {}) ∧
        ∃ fresh, Program.ofRoutines (assorted.routines.map Routine.bare) = .ok fresh ∧
          ∀ sink steps, (Machine.standard 9).course q sink steps =
            (Machine.standard 9).course fresh sink steps := by
  have buildable : assorted.Buildable := ⟨by decide +kernel, by decide +kernel, by decide +kernel⟩
  obtain ⟨q, decoded, same, -, noted, bare, -, fresh, built, runs⟩ := round_trip buildable
  exact ⟨buildable, by decide +kernel, q, decoded, same.trans (by decide +kernel), noted, bare, fresh,
    built, fun sink steps => (runs _ sink steps).1⟩

/-- Encodings show where they end: what follows one is left alone, and what stops short of its end
is found to be too short. So none begins with another. -/
theorem self_delimiting (buildable : p.Buildable) :
    (∀ rest, ∃ q, decode (program p ++ rest) = .ok q ∧
      q.routines.map (fun r => (r.name, r.body)) = p.routines.map (fun r => (r.name, r.body))) ∧
    (∀ e, e <+: program p → e ≠ program p → decode e = .error .endOfInput) ∧
    ∀ other : Program, other.Buildable → program other <+: program p → program other = program p := by
  refine ⟨fun rest => ⟨p.bare, decode_program buildable rest, ?_⟩,
    fun e before cut => decode_strict_prefix buildable before cut, fun other also before => ?_⟩
  · rw [Program.bare, List.map_map]
    rfl
  · by_cases same : program other = program p
    · exact same
    · have whole := decode_program also []
      rw [List.append_nil, decode_strict_prefix buildable before same] at whole
      cases whole

theorem brief_self_delimiting :
    let p : Program := { routines := [{
      name := "é"
      body := [{ opcode := "f", output := some 300, payload := .double ⟨0x7ff0000000000000⟩ }] }] }
    let noted : Program := { p with notes := ⟨[("author", .text "")]⟩ }
    let bytes : List UInt8 := [1, 2, 195, 169, 1, 1, 102, 0, 1, 172, 2, 3, 0, 0, 0, 0, 0, 0, 240, 127]
    p.Buildable ∧ noted.Buildable ∧ program p = bytes ∧
      (∃ q, decode (bytes ++ [255]) = .ok q ∧
        q.routines.map (fun r => (r.name, r.body)) = p.routines.map (fun r => (r.name, r.body))) ∧
      (∀ n ∈ [3, 10, 15], decode (bytes.take n) = .error .endOfInput) ∧
      program noted = bytes := by
  intro p noted bytes
  have buildable : p.Buildable := ⟨by decide +kernel, by decide +kernel, by decide +kernel⟩
  have also : noted.Buildable := ⟨by decide +kernel, by decide +kernel, by decide +kernel⟩
  have encoded : program p = bytes := by decide +kernel
  obtain ⟨whole, short, only⟩ := self_delimiting buildable
  rw [encoded] at whole short only
  refine ⟨buildable, also, encoded, whole [255], fun n cut => ?_,
    only noted also (by decide +kernel)⟩
  have strict : ∀ n ∈ [3, 10, 15], bytes.take n ≠ bytes := by decide +kernel
  exact short _ (List.take_prefix n bytes) (strict n cut)

end Wire

end RegisterMachine
