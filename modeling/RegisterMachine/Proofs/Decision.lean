import RegisterMachine.Proofs.Plan

/-!
What a plan can decide. A deed that is decided on fits the instruction: its opcode, operands,
payload and output are the ones that such a deed needs. A plan that refuses does so for a reason
that the executing frame, the program or the shared contents bear out.
-/

namespace RegisterMachine

namespace Opcodes

def calls : List String := ["fn-call", "obj-invoke", "co-invoke"]

def plainReturns : List String := ["fn-return", "fn-ret"]

def valueReturns : List String := ["fn-return-value", "fn-ret-val"]

def transfers : List String := calls ++ plainReturns ++ valueReturns ++ ["co-yield"]

end Opcodes

namespace Frame

variable {f : Frame} {i : Instruction} {k : Nat}

theorem get_eq_ok_iff {r : Register} {v : Value} : f.get r = .ok v ↔ f.registers[r]? = some v := by
  unfold get
  cases f.registers[r]? <;> simp

theorem operandAs_eq_ok_iff {α : Type} {rep : Representation α} {a : α} :
    f.operandAs rep i k = .ok a ↔ ∃ v, f.operand i k = .ok v ∧ rep.ofValue? v = some a := by
  unfold operandAs operand
  cases i.input k with
  | error e => simp
  | ok r =>
    simp only [ok_bind]
    cases f.get r with
    | error e => simp
    | ok v => cases found : rep.ofValue? v <;> simp [found, pure, Except.pure, throw, throwThe,
        MonadExceptOf.throw]

theorem mapM_get_eq_ok {registers : List Register} {args : List Value}
    (read : registers.mapM f.get = .ok args) :
    registers.map (fun r => f.registers[r]?) = args.map some := by
  induction registers generalizing args with
  | nil =>
    cases read
    rfl
  | cons r rest ih =>
    rw [List.mapM_cons] at read
    cases held : f.get r with
    | error e => simp only [held, error_bind, reduceCtorEq] at read
    | ok v =>
      cases others : rest.mapM f.get with
      | error e => simp only [held, others, ok_bind, error_bind, reduceCtorEq] at read
      | ok vs =>
        simp only [held, others, ok_bind] at read
        cases read
        rw [List.map_cons, List.map_cons, get_eq_ok_iff.mp held, ih others]

theorem outlet_eq_ok_iff {r : Register} :
    f.outlet i = .ok r ↔ i.output = some r ∧ r < f.registers.size := by
  unfold outlet Instruction.destination
  cases i.output with
  | none => simp
  | some q =>
    by_cases inside : q < f.registers.size
    · simp only [ok_bind, inside, if_true, pure, Except.pure, Except.ok.injEq, Option.some.injEq]
      constructor
      · rintro rfl
        exact ⟨rfl, inside⟩
      · exact And.left
    · simp only [ok_bind, inside, if_false, throw, throwThe, MonadExceptOf.throw, Option.some.injEq,
        reduceCtorEq, false_iff, not_and]
      rintro rfl
      exact inside

end Frame

/-- The function that a call names: by its payload, or by the type of the receiver and the
payload. -/
inductive Calls (i : Instruction) (f : Frame) (h : Heap) : String → Prop where
  | function {name} (opcode : i.opcode = "fn-call") (named : i.name = .ok name) : Calls i f h name
  | method {id method} (opcode : i.opcode = "obj-invoke")
      (receiver : f.operandAs .object i 0 = .ok id) (named : i.name = .ok method) :
      Calls i f h (Opcodes.methodName (h.object id).shape.name method)

theorem Calls.opcode_mem {i : Instruction} {f : Frame} {h : Heap} {name : String}
    (c : Calls i f h name) : i.opcode = "fn-call" ∨ i.opcode = "obj-invoke" := by
  cases c with
  | function opcode _ => exact .inl opcode
  | method opcode _ _ => exact .inr opcode

/-- Why an instruction may be refused before it has done anything. -/
inductive Refusal (p : Program) (i : Instruction) (f : Frame) (h : Heap) : Fault → Prop where
  | operand {k : Nat} (absent : i.inputs[k]? = none) : Refusal p i f h (.missingOperand i.opcode k)
  | register {r} (mentioned : r ∈ i.registers) (outside : f.registers.size ≤ r) :
      Refusal p i f h (f.outOfRange r)
  | kind {k : Nat} {r v expected} (named : i.inputs[k]? = some r) (held : f.registers[r]? = some v)
      (differs : v.kind ≠ expected) : Refusal p i f h (.kindMismatch i.opcode r expected v.kind)
  | output (absent : i.output = none) : Refusal p i f h (.missingOutput i.opcode)
  | payload {demand} : Refusal p i f h (.payloadMismatch i.opcode demand i.payload.kind)
  | zero : Refusal p i f h (.divisionByZero i.opcode)
  | routine {name} (absent : p.find name = .error (.unknownRoutine name)) :
      Refusal p i f h (.unknownRoutine name)
  | arguments {name id r} (called : Calls i f h name) (found : p.find name = .ok id)
      (present : p.routine id = .ok r) (crowded : r.registerCount < i.inputs.length) :
      Refusal p i f h (.registerOutOfRange r.name (i.inputs.length - 1) r.registerCount)
  | foreign (absent : p.routines.length ≤ f.routine) :
      Refusal p i f h (.foreignRoutine f.routine p.routines.length)
  | label {r l} (found : p.routine f.routine = .ok r) (named : i.name = .ok l)
      (absent : Opcodes.target r l = .error (.unknownLabel r.name l)) :
      Refusal p i f h (.unknownLabel r.name l)
  | index {n : Int} {length : Nat} (outside : ¬(0 ≤ n ∧ n < length)) :
      Refusal p i f h (.indexOutOfBounds n length)
  | field {shape : Descriptor} {x : String} (absent : shape.fields.idxOf? x = none) :
      Refusal p i f h (.unknownField shape.name x)
  | unavailable {id} (named : f.operand i 0 = .ok (.coroutine id))
      (empty : (h.coroutine id).parked = none) :
      Refusal p i f h (.coroutineUnavailable (h.coroutine id).name)
  | crash (opcode : i.opcode = "co-crash") : Refusal p i f h (.crash f.name)

theorem Refusal.ne_overflow {p : Program} {i : Instruction} {f : Frame} {h : Heap} {e : Fault}
    (reason : Refusal p i f h e) (depth limit : Nat) : e ≠ .stackOverflow depth limit := by
  rintro rfl
  cases reason

/-- Which instruction a change belongs to. -/
def Change.Fits (p : Program) (i : Instruction) (f : Frame) (h : Heap) : Change → Prop
  | nothing => i.opcode = "jump-label" ∨ i.opcode = "jump-if"
  | register r _ => i.opcode ∉ Opcodes.transfers ∧ f.outlet i = .ok r
  | jump index => (i.opcode = "jump-to" ∨ i.opcode = "jump-if") ∧
      ∃ r l, p.routine f.routine = .ok r ∧ i.name = .ok l ∧ Opcodes.target r l = .ok index
  | array r length => i.opcode = "arr-create" ∧ f.outlet i = .ok r ∧
      ∃ n : Int32, f.operandAs .int i 0 = .ok n ∧ n.toInt = length
  | object r shape => i.opcode = "obj-create" ∧ f.outlet i = .ok r ∧ i.descriptor = .ok shape
  | coroutine r name parked => i.opcode = "co-create" ∧ f.outlet i = .ok r ∧ i.name = .ok name ∧
      ∃ id, p.find name = .ok id ∧ Frame.enter p id [] = .ok parked
  | element id place v => i.opcode = "arr-set" ∧ f.operandAs .array i 0 = .ok id ∧
      (∃ n : Int32, f.operandAs .int i 1 = .ok n ∧ h.place id n.toInt = .ok place) ∧
      f.operand i 2 = .ok v
  | cell id place v => i.opcode = "obj-set" ∧ f.operandAs .object i 0 = .ok id ∧
      (∃ field, i.name = .ok field ∧ h.fieldPlace id field = .ok place) ∧ f.operand i 1 = .ok v

def Deed.Fits (p : Program) (i : Instruction) (f : Frame) (h : Heap) : Deed → Prop
  | change c => c.Fits p i f h
  | print v => i.opcode = "debug-print" ∧ f.operand i 0 = .ok v
  | enter callee => ∃ name args id, Calls i f h name ∧ i.inputs.mapM f.get = .ok args ∧
      p.find name = .ok id ∧ Frame.enter p id args = .ok callee
  | resume id parked => i.opcode = "co-invoke" ∧ f.operand i 0 = .ok (.coroutine id) ∧
      (h.coroutine id).parked = some parked
  | leave => i.opcode ∈ Opcodes.plainReturns
  | handBack v => i.opcode ∈ Opcodes.valueReturns ∧ f.operand i 0 = .ok v
  | yield v => i.opcode = "co-yield" ∧ f.operand i 0 = .ok v

def FailsAs {α : Type} (E : Fault → Prop) (x : Except Fault α) : Prop := ∀ e, x = .error e → E e

namespace FailsAs

variable {α β : Type} {E : Fault → Prop}

theorem ok (a : α) : FailsAs E (.ok a) := nofun

theorem error {e : Fault} (known : E e) : FailsAs E (.error e : Except Fault α) := by
  rintro _ ⟨⟩
  exact known

theorem bind {x : Except Fault α} {g : α → Except Fault β} (first : FailsAs E x)
    (then_ : ∀ a, x = .ok a → FailsAs E (g a)) : FailsAs E (x >>= g) := by
  cases x with
  | error e => exact error (first e rfl)
  | ok a => exact then_ a rfl

theorem map {x : Except Fault α} (fails : FailsAs E x) (g : α → β) : FailsAs E (x.map g) := by
  cases x with
  | error e => exact error (fails e rfl)
  | ok a => exact ok (g a)

end FailsAs

section Reasons

variable {α : Type} {p : Program} {i : Instruction} {f : Frame} {h : Heap}

def Refuses (p : Program) (i : Instruction) (f : Frame) (h : Heap) (x : Except Fault α) : Prop :=
  ∀ e, x = .error e → Refusal p i f h e

/-- What a plan decides fits, and what it refuses it has a reason to refuse. -/
def Sound (p : Program) (i : Instruction) (f : Frame) (h : Heap) : Except Fault Deed → Prop
  | .ok d => d.Fits p i f h
  | .error e => Refusal p i f h e

theorem Refuses.ok (a : α) : Refuses p i f h (.ok a : Except Fault α) := FailsAs.ok a

theorem Refuses.error {e : Fault} (reason : Refusal p i f h e) :
    Refuses p i f h (.error e : Except Fault α) := FailsAs.error reason

theorem Refuses.bind {β : Type} {x : Except Fault α} {g : α → Except Fault β}
    (first : Refuses p i f h x) (then_ : ∀ a, x = .ok a → Refuses p i f h (g a)) :
    Refuses p i f h (x >>= g) := FailsAs.bind first then_

theorem Sound.bind {x : Except Fault α} {g : α → Except Fault Deed}
    (first : Refuses p i f h x) (then_ : ∀ a, x = .ok a → Sound p i f h (g a)) :
    Sound p i f h (x >>= g) := by
  cases x with
  | error e => exact first e rfl
  | ok a => exact then_ a rfl

/-- A representation that refuses a value does so because the value is of another kind. -/
def Representation.Exact (rep : Representation α) : Prop :=
  ∀ v, rep.ofValue? v = none → v.kind ≠ rep.kind

theorem input_refuses (k : Nat) : Refuses p i f h (i.input k) := by
  unfold Instruction.input
  cases absent : i.inputs[k]? with
  | none => exact .error (.operand absent)
  | some r => exact .ok r

theorem get_refuses {r : Register} (mentioned : r ∈ i.registers) : Refuses p i f h (f.get r) := by
  unfold Frame.get
  cases absent : f.registers[r]? with
  | none => exact .error (.register mentioned (Array.getElem?_eq_none_iff.mp absent))
  | some v => exact .ok v

theorem input_mentioned {k : Nat} {r : Register} (read : i.input k = .ok r) :
    i.inputs[k]? = some r ∧ r ∈ i.registers := by
  unfold Instruction.input at read
  split at read
  · next q found =>
    cases read
    exact ⟨found, List.mem_append_left _ (List.mem_of_getElem? found)⟩
  · cases read

theorem operand_refuses (k : Nat) : Refuses p i f h (f.operand i k) :=
  (input_refuses k).bind fun _ read => get_refuses (input_mentioned read).2

theorem operandAs_refuses {rep : Representation α} (exact : rep.Exact) (k : Nat) :
    Refuses p i f h (f.operandAs rep i k) := by
  refine (input_refuses k).bind fun r read => ?_
  obtain ⟨named, mentioned⟩ := input_mentioned read
  refine (get_refuses mentioned).bind fun v held => ?_
  cases found : rep.ofValue? v with
  | none => exact .error (.kind named (Frame.get_eq_ok_iff.mp held) (exact v found))
  | some a => exact .ok a

theorem outlet_refuses : Refuses p i f h (f.outlet i) := by
  unfold Frame.outlet Instruction.destination
  cases absent : i.output with
  | none => exact .error (.output absent)
  | some r =>
    rw [ok_bind]
    split
    · exact .ok r
    · next outside =>
      exact .error (.register (by simp [Instruction.registers, absent]) (Nat.not_lt.mp outside))

theorem inputs_refuse : Refuses p i f h (i.inputs.mapM f.get) := by
  have each : ∀ r ∈ i.inputs, Refuses p i f h (f.get r) := fun r named =>
    get_refuses (List.mem_append_left _ named)
  revert each
  generalize i.inputs = registers
  intro each
  induction registers with
  | nil => exact .ok []
  | cons r rest ih =>
    rw [List.mapM_cons]
    refine (each r List.mem_cons_self).bind fun v _ => ?_
    exact (ih fun q named => each q (List.mem_cons_of_mem r named)).bind fun vs _ => .ok (v :: vs)

theorem name_refuses : Refuses p i f h i.name := by
  unfold Instruction.name
  split
  · exact .ok _
  · exact .error .payload

theorem descriptor_refuses : Refuses p i f h i.descriptor := by
  unfold Instruction.descriptor
  split
  · exact .ok _
  · exact .error .payload

theorem find_refuses (name : String) : Refuses p i f h (p.find name) := by
  cases absent : p.find name with
  | ok id => exact .ok id
  | error e =>
    obtain ⟨rfl, -⟩ := Program.find_eq_error_iff.mp absent
    exact .error (.routine absent)

theorem routine_refuses : Refuses p i f h (p.routine f.routine) := by
  unfold Program.routine
  split
  · exact .ok _
  · next absent => exact .error (.foreign (List.getElem?_eq_none_iff.mp absent))

end Reasons

end RegisterMachine
