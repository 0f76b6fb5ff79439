import RegisterMachine.Proofs.Decision

/-!
What an opcode has to do with the faults that it raises. A refusal has its grounds in the operands
of the instruction that is refused and in what they refer to: which operand it is, and which opcodes
look there at all. Here are the grounds of each read that plans consist of.
-/

namespace RegisterMachine

def PayloadDemand.Met (found : PayloadKind) : PayloadDemand → Prop
  | scalar => found ∈ [.int, .long, .double, .bool]
  | name => found = .name
  | descriptor => found = .descriptor

/-- What the instruction, its operands and the shared contents have to do with a fault. The faults
of which nothing is said here are told by the reason of the refusal. -/
def Grounds (i : Instruction) (f : Frame) (h : Heap) : Fault → Prop
  | .unknownRoutine name => Calls i f h name ∨ i.opcode = "co-create" ∧ i.name = .ok name
  | .unknownLabel _ _ => i.opcode = "jump-to" ∨ i.opcode = "jump-if"
  | .unknownField type field => (i.opcode = "obj-get" ∨ i.opcode = "obj-set") ∧
      i.name = .ok field ∧ ∃ id, f.operandAs .object i 0 = .ok id ∧
        type = (h.object id).shape.name ∧ field ∉ (h.object id).shape.fields
  | .payloadMismatch _ demand found => ¬demand.Met found
  | .indexOutOfBounds index length =>
      (i.opcode = "arr-get" ∨ i.opcode = "arr-set") ∧ (∃ id n, f.operandAs .array i 0 = .ok id ∧
        f.operandAs .int i 1 = .ok n ∧ index = n.toInt ∧ length = (h.elements id).size ∧
        (index < 0 ∨ length ≤ index)) ∨
      i.opcode = "arr-create" ∧ length = 0 ∧ index < 0 ∧
        ∃ n, f.operandAs .int i 0 = .ok n ∧ index = n.toInt
  | .divisionByZero _ =>
      (i.opcode = "int-div" ∨ i.opcode = "int-mod") ∧ f.operandAs .int i 1 = .ok 0 ∨
      (i.opcode = "long-div" ∨ i.opcode = "long-mod") ∧ f.operandAs .long i 1 = .ok 0
  | .coroutineUnavailable _ => i.opcode = "co-invoke"
  | _ => True

section Reads

variable {α : Type} {p : Program} {i : Instruction} {f : Frame} {h : Heap}

theorem input_grounded (k : Nat) : FailsAs (Grounds i f h) (i.input k) := by
  unfold Instruction.input
  split
  · exact .ok _
  · exact .error trivial

theorem get_grounded (r : Register) : FailsAs (Grounds i f h) (f.get r) := by
  unfold Frame.get
  split
  · exact .ok _
  · exact .error trivial

theorem operand_grounded (k : Nat) : FailsAs (Grounds i f h) (f.operand i k) :=
  (input_grounded k).bind fun r _ => get_grounded r

theorem operandAs_grounded (rep : Representation α) (k : Nat) :
    FailsAs (Grounds i f h) (f.operandAs rep i k) := by
  refine (input_grounded k).bind fun r _ => (get_grounded r).bind fun v _ => ?_
  split
  · exact .ok _
  · exact .error trivial

theorem outlet_grounded : FailsAs (Grounds i f h) (f.outlet i) := by
  unfold Frame.outlet Instruction.destination
  cases i.output with
  | none => exact .error trivial
  | some r =>
    rw [ok_bind]
    split
    · exact .ok r
    · exact .error trivial

theorem inputs_grounded : FailsAs (Grounds i f h) (i.inputs.mapM f.get) := by
  generalize i.inputs = registers
  induction registers with
  | nil => exact .ok []
  | cons r rest ih =>
    rw [List.mapM_cons]
    exact (get_grounded r).bind fun v _ => ih.bind fun vs _ => .ok (v :: vs)

theorem name_grounded : FailsAs (Grounds i f h) i.name := by
  unfold Instruction.name
  split
  · exact .ok _
  · next other =>
    refine .error fun named => ?_
    cases kind : i.payload <;> simp_all [PayloadDemand.Met, Payload.kind]

theorem descriptor_grounded : FailsAs (Grounds i f h) i.descriptor := by
  unfold Instruction.descriptor
  split
  · exact .ok _
  · next other =>
    refine .error fun described => ?_
    cases kind : i.payload <;> simp_all [PayloadDemand.Met, Payload.kind]

theorem routine_grounded : FailsAs (Grounds i f h) (p.routine f.routine) := by
  unfold Program.routine
  split
  · exact .ok _
  · exact .error trivial

theorem find_grounded {name : String}
    (sought : Calls i f h name ∨ i.opcode = "co-create" ∧ i.name = .ok name) :
    FailsAs (Grounds i f h) (p.find name) := by
  unfold Program.find
  split
  · exact .ok _
  · exact .error sought

theorem enter_grounded (id : RoutineId) (args : List Value) :
    FailsAs (Grounds i f h) (Frame.enter p id args) := by
  unfold Frame.enter Program.routine
  cases p.routines[id]? with
  | none => exact .error trivial
  | some r =>
    simp only [ok_bind]
    split
    · exact .error trivial
    · exact .ok _

theorem target_grounded (jumps : i.opcode = "jump-to" ∨ i.opcode = "jump-if") (r : Routine)
    (label : String) : FailsAs (Grounds i f h) (Opcodes.target r label) := by
  unfold Opcodes.target
  split
  · exact .ok _
  · exact .error jumps

theorem place_grounded {id : ArrayId} {n : Int32}
    (opcode : i.opcode = "arr-get" ∨ i.opcode = "arr-set")
    (array : f.operandAs .array i 0 = .ok id) (number : f.operandAs .int i 1 = .ok n) :
    FailsAs (Grounds i f h) (h.place id n.toInt) := by
  unfold Heap.place Heap.slot
  split
  · exact .ok _
  · next outside => exact .error (.inl ⟨opcode, id, n, array, number, rfl, rfl, by omega⟩)

theorem fieldPlace_grounded {id : ObjectId} {field : String}
    (opcode : i.opcode = "obj-get" ∨ i.opcode = "obj-set")
    (object : f.operandAs .object i 0 = .ok id) (named : i.name = .ok field) :
    FailsAs (Grounds i f h) (h.fieldPlace id field) := by
  unfold Heap.fieldPlace Descriptor.position
  split
  · exact .ok _
  · next absent =>
    exact .error ⟨opcode, named, id, object, rfl, List.idxOf?_eq_none_iff.mp absent⟩

end Reads

end RegisterMachine
