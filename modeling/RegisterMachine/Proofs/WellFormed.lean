import RegisterMachine.Proofs.Decoding
import RegisterMachine.Proofs.Activations
import Mathlib.Tactic.MkIffOfInductiveProp

/-!
Well-formed programs. What an opcode needs of its instruction is its signature; a program is well
formed when every instruction has what its opcode needs and finds whom it names, and when no
function can run past its end. Such a program can be prepared, and preparing it leaves it well
formed.
-/

namespace RegisterMachine

/-- What an opcode needs of its instruction: so many inputs, an output register if it writes one,
and a payload if it looks at one. -/
structure Signature where
  inputs : Nat := 0
  writes : Bool := false
  payload : Option PayloadDemand := none
deriving DecidableEq

namespace Signature

def constant : Signature := { writes := true, payload := some .scalar }

def unary : Signature := { inputs := 1, writes := true }

def binary : Signature := { inputs := 2, writes := true }

def consumer : Signature := { inputs := 1 }

def calculator : List (String × Signature) := [
  ("add", binary), ("sub", binary), ("mul", binary), ("div", binary), ("mod", binary),
  ("equal", binary), ("less", binary), ("greater", binary), ("val", constant)]

def logic : List (String × Signature) := [
  ("and", binary), ("or", binary), ("xor", binary), ("not", unary), ("val", constant)]

def fromInt : List (String × Signature) := [("int-to-long", unary), ("int-to-double", unary)]

def fromLong : List (String × Signature) := [("long-to-int", unary), ("long-to-double", unary)]

def fromDouble : List (String × Signature) := [("double-to-int", unary), ("double-to-long", unary)]

def functions : List (String × Signature) := [
  ("call", { payload := some .name }),
  ("return", {}),
  ("return-value", consumer),
  ("ret", {}),
  ("ret-val", consumer)]

def jumps : List (String × Signature) := [
  ("to", { payload := some .name }),
  ("if", { inputs := 1, payload := some .name }),
  ("label", { payload := some .name })]

def objects : List (String × Signature) := [
  ("create", { writes := true, payload := some .descriptor }),
  ("get", { inputs := 1, writes := true, payload := some .name }),
  ("set", { inputs := 2, payload := some .name }),
  ("invoke", { inputs := 1, payload := some .name })]

def arrays : List (String × Signature) := [
  ("create", unary), ("get", binary), ("set", { inputs := 3 }), ("length", unary)]

def coroutines : List (String × Signature) := [
  ("create", { writes := true, payload := some .name }),
  ("invoke", consumer),
  ("yield", consumer),
  ("crash", {})]

def copying : List (String × Signature) := [("val", unary)]

def printing : List (String × Signature) := [("print", consumer)]

def families : List (Extension × List (String × Signature)) := [
  (.int, calculator), (.long, calculator), (.double, calculator), (.bool, logic),
  (.castInt, fromInt), (.castLong, fromLong), (.castDouble, fromDouble), (.functions, functions),
  (.jumps, jumps), (.objects, objects), (.arrays, arrays), (.coroutines, coroutines),
  (.copying, copying), (.printing, printing)]

def standard : List (String × Signature) :=
  families.flatMap fun family => family.2.map fun s => (family.1.opcode s.1, s.2)

end Signature

namespace Opcodes

def signature? (opcode : String) : Option Signature := Signature.standard.lookup opcode

def enders : List String :=
  ["fn-return", "fn-ret", "fn-return-value", "fn-ret-val", "jump-to", "co-crash"]

end Opcodes

def PayloadDemand.admits : PayloadDemand → PayloadKind → Bool
  | scalar, .int | scalar, .long | scalar, .double | scalar, .bool => true
  | name, .name => true
  | descriptor, .descriptor => true
  | _, _ => false

@[mk_iff]
structure Instruction.Suits (i : Instruction) (s : Signature) : Prop where
  inputs : s.inputs ≤ i.inputs.length
  output : s.writes = true → i.output.isSome
  payload : ∀ d ∈ s.payload, d.admits i.payload.kind

def Routine.labels (r : Routine) : List String := r.body.filterMap Instruction.label?

/-- The functions and labels that an instruction of `r` names are there. -/
@[mk_iff]
structure Instruction.Linked (p : Program) (r : Routine) (i : Instruction) : Prop where
  calls : i.opcode = "fn-call" ∨ i.opcode = "co-create" →
    ∃ name ∈ i.name.toOption, ∃ callee ∈ (p.get name).toOption,
      i.opcode = "fn-call" → i.inputs.length ≤ callee.registerCount
  jumps : i.opcode = "jump-to" ∨ i.opcode = "jump-if" → ∃ label ∈ i.name.toOption, label ∈ r.labels

@[mk_iff]
structure Routine.WellFormed (p : Program) (r : Routine) : Prop where
  suits : ∀ i ∈ r.body, ∃ s ∈ Opcodes.signature? i.opcode, i.Suits s
  linked : ∀ i ∈ r.body, i.Linked p r
  labels : r.labels.Nodup
  ends : ∃ i ∈ r.body.getLast?, i.opcode ∈ Opcodes.enders

@[mk_iff]
structure Program.WellFormed (p : Program) : Prop where
  entry : Program.entry ∈ p.routines.map Routine.name
  routines : ∀ r ∈ p.routines, r.WellFormed p

section Decidability

instance (i : Instruction) (s : Signature) : Decidable (i.Suits s) :=
  decidable_of_iff' _ (i.suits_iff s)

instance (p : Program) (r : Routine) (i : Instruction) : Decidable (i.Linked p r) :=
  decidable_of_iff' _ (Instruction.linked_iff p r i)

instance (p : Program) (r : Routine) : Decidable (r.WellFormed p) :=
  decidable_of_iff' _ (Routine.wellFormed_iff p r)

instance (p : Program) : Decidable p.WellFormed := decidable_of_iff' _ p.wellFormed_iff

end Decidability

section Payloads

variable {i : Instruction} {s : Signature}

theorem Instruction.Suits.name (suits : i.Suits s) (looks : s.payload = some .name) :
    ∃ name, i.name = .ok name := by
  have admitted := suits.payload .name looks
  unfold Instruction.name
  cases payload : i.payload <;> simp [payload, Payload.kind, PayloadDemand.admits] at admitted ⊢

theorem Instruction.Suits.descriptor (suits : i.Suits s) (looks : s.payload = some .descriptor) :
    ∃ shape, i.descriptor = .ok shape := by
  have admitted := suits.payload .descriptor looks
  unfold Instruction.descriptor
  cases payload : i.payload <;> simp [payload, Payload.kind, PayloadDemand.admits] at admitted ⊢

theorem Instruction.Suits.scalar (suits : i.Suits s) (looks : s.payload = some .scalar) :
    ∃ v, Value.ofPayload? i.payload = some v := by
  have admitted := suits.payload .scalar looks
  cases payload : i.payload <;>
    simp [payload, Payload.kind, PayloadDemand.admits, Value.ofPayload?] at admitted ⊢

end Payloads

section Bare

variable {p q : Program} {r r' : Routine}

theorem Routine.body_eq_of_bare_eq (same : r'.bare = r.bare) : r'.body = r.body :=
  (Routine.mk.inj same).2.1

theorem Program.find_bare (p : Program) (name : String) : p.bare.find name = p.find name := by
  simp [find, bare, List.findIdx?_map, Function.comp_def, Routine.bare]

end Bare

section Preparing

open Opcodes

variable {r : Routine}

namespace Preparation

variable {s : Preparation}

theorem map_bare_modify (routines : List Routine) (id : RoutineId) (notes : Notes) :
    (routines.modify id fun r => { r with notes }).map Routine.bare = routines.map Routine.bare := by
  refine List.ext_getElem? fun k => ?_
  rw [List.getElem?_map, List.getElem?_map, List.getElem?_modify]
  split
  · cases routines[k]? <;> rfl
  · simp

theorem consultAt_ok {id : RoutineId}
    (ready : ∀ r, s.program.routines[id]? = some r →
      r.notes.get? labelKey = none ∧ ∃ table, labelTable r = .ok table) :
    ∃ t, consultAt indexLabels id s = .ok () t ∧ t.program.bare = s.program.bare := by
  rw [consultAt_run]
  cases found : s.program.routines[id]? with
  | none => exact ⟨s, rfl, rfl⟩
  | some r =>
    obtain ⟨unnoted, table, collected⟩ := ready r found
    have noted : ∃ notes, r.notes.add labelKey (.labels table) = .ok notes := by
      simp [Notes.add, Notes.contains, unnoted]
    obtain ⟨notes, noted⟩ := noted
    simp only [settle_run, attach, indexLabels, collected, Except.map, noted]
    exact ⟨_, rfl, by simp only [Program.bare, map_bare_modify]⟩

theorem forM_consultAt_ok {ids : List RoutineId} (distinct : ids.Nodup)
    (ready : ∀ id ∈ ids, ∀ r, s.program.routines[id]? = some r →
      r.notes.get? labelKey = none ∧ ∃ table, labelTable r = .ok table) :
    ∃ t, ids.forM (consultAt indexLabels) s = .ok () t ∧ t.program.bare = s.program.bare := by
  induction ids generalizing s with
  | nil => exact ⟨s, rfl, rfl⟩
  | cons id rest ih =>
    obtain ⟨absent, distinct⟩ := List.nodup_cons.mp distinct
    obtain ⟨t, ran, bare⟩ := consultAt_ok (ready id List.mem_cons_self)
    obtain ⟨others, -⟩ := consultAt_indexLabels ran
    have readyRest : ∀ other ∈ rest, ∀ r, t.program.routines[other]? = some r →
        r.notes.get? labelKey = none ∧ ∃ table, labelTable r = .ok table := by
      intro other member r found
      rw [others other (fun same => absent (same ▸ member))] at found
      exact ready other (List.mem_cons_of_mem id member) r found
    obtain ⟨u, ranRest, bareRest⟩ := ih distinct readyRest
    refine ⟨u, ?_, bareRest.trans bare⟩
    simp only [List.forM_eq_forM, List.forM_cons, bind_run, ran] at ranRest ⊢
    exact ranRest

end Preparation

end Preparing

end RegisterMachine
