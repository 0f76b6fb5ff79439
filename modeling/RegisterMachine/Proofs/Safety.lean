import RegisterMachine.Proofs.Faults
import RegisterMachine.Proofs.WellFormed
import Mathlib.Data.List.Forall2

/-!
What an instruction can fail of that has all that its opcode needs. It finds its operands, its
output register and its payload, and the function or the label that it names; so what is left are
the faults that the values in the registers are to blame for, the stack and the sink.
-/

namespace RegisterMachine

/-- The faults that an instruction of a well-formed program may raise. A method is looked up by the
type of its receiver, so that only a method call may miss its function or have too many arguments.
-/
def Fault.Permitted (opcode : Option String) : Fault → Prop
  | .kindMismatch .. | .divisionByZero _ | .indexOutOfBounds .. | .unknownField ..
  | .coroutineUnavailable _ | .crash _ | .stackOverflow .. | .undeliverable ..
  | .outputFailed _ => True
  | .unknownRoutine _ | .registerOutOfRange .. => opcode = some "obj-invoke"
  | _ => False

def Failure.Permitted (e : Failure) : Prop := e.fault.Permitted (e.location.map Location.opcode)

/-- The instruction, of the function `r` that the frame executes, has what the signature asks for
and finds whom it names. -/
structure Equipped (p : Program) (s : Signature) (i : Instruction) (f : Frame) (r : Routine) :
    Prop where
  suits : i.Suits s
  inside : ∀ q ∈ i.registers, q < f.registers.size
  found : p.routine f.routine = .ok r
  labelled : r.Labelled
  linked : i.Linked p r

def Safe {α : Type} (i : Instruction) (x : Except Fault α) : Prop :=
  ∀ e, x = .error e → e.Permitted (some i.opcode)

namespace Safe

variable {α β : Type} {i : Instruction}

theorem ok (a : α) : Safe i (.ok a : Except Fault α) := FailsAs.ok a

theorem error {e : Fault} (permitted : e.Permitted (some i.opcode)) :
    Safe i (.error e : Except Fault α) := FailsAs.error permitted

theorem of_eq_ok {x : Except Fault α} {a : α} (same : x = .ok a) : Safe i x := same ▸ ok a

theorem bind {x : Except Fault α} {g : α → Except Fault β} (first : Safe i x)
    (then_ : ∀ a, x = .ok a → Safe i (g a)) : Safe i (x >>= g) := FailsAs.bind first then_

theorem map {x : Except Fault α} (safe : Safe i x) (g : α → β) : Safe i (x.map g) :=
  FailsAs.map safe g

end Safe

section Reads

variable {α : Type} {p : Program} {s : Signature} {i : Instruction} {f : Frame} {r : Routine}
  {k : Nat}

theorem Frame.get_ok {q : Register} (inside : q < f.registers.size) : f.get q = .ok f.registers[q] :=
  get_eq_ok_iff.mpr (Array.getElem?_eq_getElem inside)

namespace Equipped

theorem input (equipped : Equipped p s i f r) (within : k < s.inputs) :
    ∃ q, i.input k = .ok q ∧ q < f.registers.size := by
  have inside : k < i.inputs.length := Nat.lt_of_lt_of_le within equipped.suits.inputs
  have listed : i.inputs[k] ∈ i.registers := List.mem_append_left _ (List.getElem_mem inside)
  exact ⟨i.inputs[k], by simp [Instruction.input, inside], equipped.inside _ listed⟩

theorem operand (equipped : Equipped p s i f r) (within : k < s.inputs) : Safe i (f.operand i k) := by
  obtain ⟨q, read, inside⟩ := equipped.input within
  rw [Frame.operand, read, ok_bind, Frame.get_ok inside]
  exact .ok _

theorem operandAs (equipped : Equipped p s i f r) (rep : Representation α) (within : k < s.inputs) :
    Safe i (f.operandAs rep i k) := by
  obtain ⟨q, read, inside⟩ := equipped.input within
  rw [Frame.operandAs, read, ok_bind, Frame.get_ok inside, ok_bind]
  cases rep.ofValue? f.registers[q] with
  | none => exact .error trivial
  | some a => exact .ok a

theorem outlet (equipped : Equipped p s i f r) (writes : s.writes = true) : Safe i (f.outlet i) := by
  obtain ⟨q, output⟩ := Option.isSome_iff_exists.mp (equipped.suits.output writes)
  have inside : q < f.registers.size :=
    equipped.inside q (by simp [Instruction.registers, output])
  exact .of_eq_ok (Frame.outlet_eq_ok_iff.mpr ⟨output, inside⟩)

theorem inputs (equipped : Equipped p s i f r) : Safe i (i.inputs.mapM f.get) := by
  have each : ∀ q ∈ i.inputs, q < f.registers.size := fun q listed =>
    equipped.inside q (List.mem_append_left _ listed)
  revert each
  generalize i.inputs = registers
  intro each
  induction registers with
  | nil => exact .ok []
  | cons q rest ih =>
    rw [List.mapM_cons, Frame.get_ok (each q List.mem_cons_self), ok_bind]
    exact (ih fun q' listed => each q' (List.mem_cons_of_mem q listed)).bind fun vs _ => .ok _

theorem name (equipped : Equipped p s i f r) (looks : s.payload = some .name) : Safe i i.name := by
  obtain ⟨name, named⟩ := equipped.suits.name looks
  exact .of_eq_ok named

end Equipped

theorem place_safe (h : Heap) (id : ArrayId) (index : Int) : Safe i (h.place id index) := by
  unfold Heap.place Heap.slot
  split
  · exact .ok _
  · exact .error trivial

theorem fieldPlace_safe (h : Heap) (id : ObjectId) (field : String) :
    Safe i (h.fieldPlace id field) := by
  unfold Heap.fieldPlace Descriptor.position
  split
  · exact .ok _
  · exact .error trivial

end Reads

section Plans

variable {α β : Type} {p : Program} {s : Signature} {i : Instruction} {f : Frame} {r : Routine}
  {opcode : String} {handler : Handler}

/-- The handler of the opcode is safe for every instruction that suits the signature. -/
def Guarded (s : Signature) (opcode : String) (handler : Handler) : Prop :=
  ∃ plan, Follows handler plan ∧ ∀ p r i f h, i.opcode = opcode → Equipped p s i f r →
    Safe i (plan p i f h)

theorem computing_guarded {value : Instruction → Frame → Heap → Except Fault Value}
    (follows : Follows handler (.computing value)) (writes : s.writes = true)
    (safe : ∀ p r i f h, Equipped p s i f r → Safe i (value i f h)) : Guarded s opcode handler :=
  ⟨_, follows, fun p r i f h _ equipped => (safe p r i f h equipped).bind fun _ _ =>
    (equipped.outlet writes).bind fun _ _ => .ok _⟩

theorem unary_guarded (source : Representation α) (target : Representation β) (k : α → β) :
    Guarded .unary opcode (Opcodes.unary source target k) :=
  computing_guarded (follows_unary source target k) rfl fun _ _ _ _ _ equipped =>
    (equipped.operandAs source (by decide)).bind fun _ _ => .ok _

theorem binary_guarded (source : Representation α) (target : Representation β) (k : α → α → β) :
    Guarded .binary opcode (Opcodes.binary source target k) :=
  computing_guarded (follows_binary source target k) rfl fun _ _ _ _ _ equipped =>
    (equipped.operandAs source (by decide)).bind fun _ _ =>
      (equipped.operandAs source (by decide)).bind fun _ _ => .ok _

theorem division_guarded (rep : Representation α) (k : α → α → Option α) :
    Guarded .binary opcode (Opcodes.division rep k) := by
  refine computing_guarded (follows_division rep k) rfl fun _ _ _ _ _ equipped =>
    (equipped.operandAs rep (by decide)).bind fun a _ =>
      (equipped.operandAs rep (by decide)).bind fun b _ => ?_
  cases k a b with
  | none => exact .error trivial
  | some c => exact .ok _

theorem constant_guarded : Guarded .constant opcode Opcodes.constant := by
  refine computing_guarded follows_constant rfl fun _ _ _ _ _ equipped => ?_
  obtain ⟨v, denotes⟩ := equipped.suits.scalar rfl
  rw [Plan.constant, denotes]
  exact .ok v

theorem copy_guarded : Guarded .unary opcode Opcodes.copy :=
  computing_guarded follows_copy rfl fun _ _ _ _ _ equipped => equipped.operand (by decide)

theorem createArray_guarded : Guarded .unary opcode Opcodes.createArray := by
  refine ⟨_, follows_createArray, fun p r i f h _ equipped =>
    (equipped.operandAs .int (by decide)).bind fun length _ => ?_⟩
  split
  · exact .error trivial
  · exact (equipped.outlet rfl).bind fun _ _ => .ok _

theorem loadElement_guarded : Guarded .binary opcode Opcodes.loadElement :=
  computing_guarded follows_loadElement rfl fun _ _ _ _ h equipped =>
    (equipped.operandAs .array (by decide)).bind fun id _ =>
      (equipped.operandAs .int (by decide)).bind fun index _ => (place_safe h id _).map _

theorem storeElement_guarded : Guarded { inputs := 3 } opcode Opcodes.storeElement :=
  ⟨_, follows_storeElement, fun _ _ _ _ h _ equipped =>
    (equipped.operandAs .array (by decide)).bind fun id _ =>
      (equipped.operandAs .int (by decide)).bind fun index _ =>
        (equipped.operand (by decide)).bind fun _ _ => (place_safe h id _).bind fun _ _ => .ok _⟩

theorem arrayLength_guarded : Guarded .unary opcode Opcodes.arrayLength :=
  computing_guarded follows_arrayLength rfl fun _ _ _ _ _ equipped =>
    (equipped.operandAs .array (by decide)).bind fun _ _ => .ok _

theorem createObject_guarded :
    Guarded { writes := true, payload := some .descriptor } opcode Opcodes.createObject := by
  refine ⟨_, follows_createObject, fun _ _ i f _ _ equipped => ?_⟩
  obtain ⟨shape, described⟩ := equipped.suits.descriptor rfl
  rw [Plan.createObject, described, ok_bind]
  exact (equipped.outlet rfl).bind fun _ _ => .ok _

theorem loadField_guarded :
    Guarded { inputs := 1, writes := true, payload := some .name } opcode Opcodes.loadField :=
  computing_guarded follows_loadField rfl fun _ _ _ _ h equipped =>
    (equipped.operandAs .object (by decide)).bind fun id _ =>
      (equipped.name rfl).bind fun field _ => (fieldPlace_safe h id field).map _

theorem storeField_guarded :
    Guarded { inputs := 2, payload := some .name } opcode Opcodes.storeField :=
  ⟨_, follows_storeField, fun _ _ _ _ h _ equipped =>
    (equipped.operandAs .object (by decide)).bind fun id _ =>
      (equipped.operand (by decide)).bind fun _ _ =>
        (equipped.name rfl).bind fun field _ => (fieldPlace_safe h id field).bind fun _ _ => .ok _⟩

theorem printLine_guarded : Guarded .consumer opcode Opcodes.printLine :=
  ⟨_, follows_printLine, fun _ _ _ _ _ _ equipped =>
    (equipped.operand (by decide)).bind fun _ _ => .ok _⟩

theorem leave_guarded : Guarded {} opcode Opcodes.leave :=
  ⟨_, follows_leave, fun _ _ _ _ _ _ _ => .ok _⟩

theorem leaveWith_guarded : Guarded .consumer opcode Opcodes.leaveWith :=
  ⟨_, follows_leaveWith, fun _ _ _ _ _ _ equipped =>
    (equipped.operand (by decide)).bind fun _ _ => .ok _⟩

theorem yield_guarded : Guarded .consumer opcode Opcodes.yield :=
  ⟨_, follows_yield, fun _ _ _ _ _ _ equipped =>
    (equipped.operand (by decide)).bind fun _ _ => .ok _⟩

theorem crash_guarded : Guarded {} opcode Opcodes.crash :=
  ⟨_, follows_crash, fun _ _ _ _ _ _ _ => .error trivial⟩

theorem resume_guarded : Guarded .consumer opcode Opcodes.resume := by
  refine ⟨_, follows_resume, fun _ _ _ _ h _ equipped =>
    (equipped.operandAs .coroutine (by decide)).bind fun id _ => ?_⟩
  cases (h.coroutine id).parked with
  | none => exact .error trivial
  | some parked => exact .ok _

theorem label_guarded (s : Signature) : Guarded s opcode Opcodes.label :=
  ⟨_, follows_label, fun _ _ _ _ _ _ _ => .ok _⟩

theorem Routine.labelAt_of_mem {label : String} (listed : label ∈ r.labels) :
    ∃ index, Opcodes.LabelAt r.body label index := by
  obtain ⟨i, member, marks⟩ := List.mem_filterMap.mp listed
  obtain ⟨index, fetched⟩ := List.mem_iff_getElem?.mp member
  unfold Instruction.label? at marks
  split at marks
  · next isLabel => exact ⟨index, i, fetched, isLabel, toOption_eq_some_iff.mp marks⟩
  · cases marks

theorem jump_safe (equipped : Equipped p s i f r)
    (jumps : i.opcode = "jump-to" ∨ i.opcode = "jump-if") (h : Heap) : Safe i (Plan.jump p i f h) := by
  obtain ⟨label, named, listed⟩ := equipped.linked.jumps jumps
  obtain ⟨index, present⟩ := Routine.labelAt_of_mem listed
  have lands := (Opcodes.target_eq_ok_iff equipped.labelled).mpr present
  simp only [Plan.jump, toOption_eq_some_iff.mp named, equipped.found, lands, ok_bind]
  exact .ok _

theorem jump_guarded : Guarded { payload := some .name } "jump-to" Opcodes.jump :=
  ⟨_, follows_jump, fun _ _ _ _ h opcode equipped => jump_safe equipped (.inl opcode) h⟩

theorem jumpIf_guarded :
    Guarded { inputs := 1, payload := some .name } "jump-if" Opcodes.jumpIf := by
  refine ⟨_, follows_jumpIf, fun _ _ i f h opcode equipped =>
    (equipped.operandAs .bool (by decide)).bind fun taken _ => ?_⟩
  cases taken with
  | false => exact .ok _
  | true => exact jump_safe equipped (.inr opcode) h

theorem Program.enter_ok {name : String} {callee : Routine} (found : p.get name = .ok callee)
    {args : List Value} (fits : args.length ≤ callee.registerCount) :
    ∃ id f, p.find name = .ok id ∧ Frame.enter p id args = .ok f := by
  obtain ⟨id, named, present⟩ := bind_eq_ok_iff.mp found
  exact ⟨id, _, named, Frame.enter_eq_ok_iff.mpr ⟨callee, present, fits, rfl⟩⟩

theorem createCoroutine_guarded :
    Guarded { writes := true, payload := some .name } "co-create" Opcodes.createCoroutine := by
  refine ⟨_, follows_createCoroutine, fun p r i f h opcode equipped => ?_⟩
  obtain ⟨name, named, callee, found, -⟩ := equipped.linked.calls (.inr opcode)
  have none_given : ([] : List Value).length ≤ callee.registerCount := Nat.zero_le _
  obtain ⟨id, parked, found, entered⟩ :=
    Program.enter_ok (toOption_eq_some_iff.mp found) none_given
  simp only [Plan.createCoroutine, toOption_eq_some_iff.mp named, found, entered, ok_bind]
  exact (equipped.outlet rfl).bind fun _ _ => .ok _

theorem callFunction_guarded :
    Guarded { payload := some .name } "fn-call" Opcodes.callFunction := by
  refine ⟨_, follows_callFunction, fun p r i f h opcode equipped =>
    equipped.inputs.bind fun args read => ?_⟩
  obtain ⟨name, named, callee, found, fits⟩ := equipped.linked.calls (.inl opcode)
  have count : args.length = i.inputs.length := by
    simpa using (congrArg List.length (Frame.mapM_get_eq_ok read)).symm
  obtain ⟨id, entering, found, entered⟩ := Program.enter_ok (toOption_eq_some_iff.mp found)
    (count ▸ fits opcode)
  simp only [Plan.callee, toOption_eq_some_iff.mp named, found, entered, ok_bind]
  exact .ok _

theorem callMethod_guarded :
    Guarded { inputs := 1, payload := some .name } "obj-invoke" Opcodes.callMethod := by
  refine ⟨_, follows_callMethod, fun p r i f h opcode equipped =>
    (equipped.operandAs .object (by decide)).bind fun id _ =>
    (equipped.name rfl).bind fun method _ =>
      equipped.inputs.bind fun args _ => .bind ?_ fun rid found => .bind ?_ fun _ _ => .ok _⟩
  · unfold Program.find
    split
    · exact .ok _
    · exact .error (congrArg some opcode)
  · obtain ⟨callee, present, -⟩ := find_eq_ok found
    simp only [Frame.enter, present, ok_bind]
    split
    · exact .error (congrArg some opcode)
    · exact .ok _

end Plans

section Table

variable {α : Type}

/-- The handlers of a family and these signatures go side by side, and each signature guards its
handler. -/
def Guards (x : Extension) (signatures : List (String × Signature)) : Prop :=
  List.Forall₂ (fun e s => e.1 = s.1 ∧ Guarded s.2 (x.opcode e.1) e.2) x.handlers signatures

theorem calculators_guarded {x : Extension} {c : Opcodes.Calculator α}
    (handlers : x.handlers = c.handlers) : Guards x Signature.calculator := by
  simp only [Guards, handlers, Opcodes.Calculator.handlers, Opcodes.comparison,
    Signature.calculator, List.forall₂_cons, true_and]
  exact ⟨binary_guarded _ _ _, binary_guarded _ _ _, binary_guarded _ _ _, division_guarded _ _,
    division_guarded _ _, binary_guarded _ _ _, binary_guarded _ _ _, binary_guarded _ _ _,
    constant_guarded, .nil⟩

theorem logic_guarded : Guards .bool Signature.logic := by
  simp only [Guards, Extension.bool, Opcodes.logic, Signature.logic, List.forall₂_cons, true_and]
  exact ⟨binary_guarded _ _ _, binary_guarded _ _ _, binary_guarded _ _ _, unary_guarded _ _ _,
    constant_guarded, .nil⟩

theorem castInt_guarded : Guards .castInt Signature.fromInt := by
  simp only [Guards, Extension.castInt, Opcodes.fromInt, Signature.fromInt, List.forall₂_cons,
    true_and]
  exact ⟨unary_guarded _ _ _, unary_guarded _ _ _, .nil⟩

theorem castLong_guarded : Guards .castLong Signature.fromLong := by
  simp only [Guards, Extension.castLong, Opcodes.fromLong, Signature.fromLong, List.forall₂_cons,
    true_and]
  exact ⟨unary_guarded _ _ _, unary_guarded _ _ _, .nil⟩

theorem castDouble_guarded : Guards .castDouble Signature.fromDouble := by
  simp only [Guards, Extension.castDouble, Opcodes.fromDouble, Signature.fromDouble,
    List.forall₂_cons, true_and]
  exact ⟨unary_guarded _ _ _, unary_guarded _ _ _, .nil⟩

theorem functions_guarded : Guards .functions Signature.functions := by
  simp only [Guards, Extension.functions, Signature.functions, Extension.opcode,
    String.reduceAppend, List.forall₂_cons, true_and]
  exact ⟨callFunction_guarded, leave_guarded, leaveWith_guarded, leave_guarded, leaveWith_guarded,
    .nil⟩

theorem jumps_guarded : Guards .jumps Signature.jumps := by
  simp only [Guards, Extension.jumps, Signature.jumps, Extension.opcode, String.reduceAppend,
    List.forall₂_cons, true_and]
  exact ⟨jump_guarded, jumpIf_guarded, label_guarded _, .nil⟩

theorem objects_guarded : Guards .objects Signature.objects := by
  simp only [Guards, Extension.objects, Signature.objects, Extension.opcode, String.reduceAppend,
    List.forall₂_cons, true_and]
  exact ⟨createObject_guarded, loadField_guarded, storeField_guarded, callMethod_guarded, .nil⟩

theorem arrays_guarded : Guards .arrays Signature.arrays := by
  simp only [Guards, Extension.arrays, Signature.arrays, List.forall₂_cons, true_and]
  exact ⟨createArray_guarded, loadElement_guarded, storeElement_guarded, arrayLength_guarded, .nil⟩

theorem coroutines_guarded : Guards .coroutines Signature.coroutines := by
  simp only [Guards, Extension.coroutines, Signature.coroutines, Extension.opcode,
    String.reduceAppend, List.forall₂_cons, true_and]
  exact ⟨createCoroutine_guarded, resume_guarded, yield_guarded, crash_guarded, .nil⟩

theorem copying_guarded : Guards .copying Signature.copying := .cons ⟨rfl, copy_guarded⟩ .nil

theorem printing_guarded : Guards .printing Signature.printing :=
  .cons ⟨rfl, printLine_guarded⟩ .nil

theorem families_guarded : ∀ family ∈ Signature.families, Guards family.1 family.2 := by
  simp only [Signature.families, List.forall_mem_cons]
  exact ⟨calculators_guarded (c := .int) rfl, calculators_guarded (c := .long) rfl,
    calculators_guarded (c := .double) rfl, logic_guarded, castInt_guarded, castLong_guarded,
    castDouble_guarded, functions_guarded, jumps_guarded, objects_guarded, arrays_guarded,
    coroutines_guarded, copying_guarded, printing_guarded, by simp⟩

theorem Guards.table {x : Extension} {signatures : List (String × Signature)}
    (guards : Guards x signatures) :
    List.Forall₂ (fun e s => e.1 = s.1 ∧ Guarded s.2 e.1 e.2) x.table
      (signatures.map fun s => (x.opcode s.1, s.2)) := by
  rw [Extension.table, List.forall₂_map_left_iff, List.forall₂_map_right_iff]
  exact guards.imp fun e s beside => ⟨congrArg x.opcode beside.1, beside.2⟩

theorem flatMap_guarded {families : List (Extension × List (String × Signature))}
    (each : ∀ family ∈ families, Guards family.1 family.2) :
    List.Forall₂ (fun e s => e.1 = s.1 ∧ Guarded s.2 e.1 e.2)
      (families.flatMap fun family => family.1.table)
      (families.flatMap fun family => family.2.map fun s => (family.1.opcode s.1, s.2)) := by
  induction families with
  | nil => exact .nil
  | cons family rest ih =>
    obtain ⟨first, others⟩ := List.forall_mem_cons.mp each
    exact List.rel_append first.table (ih others)

theorem standard_guarded (depth : Nat) :
    List.Forall₂ (fun e s => e.1 = s.1 ∧ Guarded s.2 e.1 e.2) (Machine.standard depth).handlers
      Signature.standard := by
  have families : Extension.standard = Signature.families.map Prod.fst := rfl
  rw [Machine.standard, families, List.flatMap_map]
  exact flatMap_guarded families_guarded

/-- What is found under a name in one of two tables that go side by side is found in the other. -/
theorem lookup_beside {β : Type} (related : String → α → β → Prop) {left : List (String × α)}
    {right : List (String × β)}
    (beside : List.Forall₂ (fun a b => a.1 = b.1 ∧ related a.1 a.2 b.2) left right) {name : String}
    {b : β} (found : right.lookup name = some b) :
    ∃ a, left.lookup name = some a ∧ related name a b := by
  induction beside with
  | nil => cases found
  | @cons row row' _ _ related_rows _ ih =>
    obtain ⟨key, a⟩ := row
    obtain ⟨key', b'⟩ := row'
    obtain ⟨rfl, related⟩ : key = key' ∧ _ := related_rows
    rw [List.lookup_cons] at found ⊢
    by_cases here : name = key
    · subst here
      simp only [beq_self_eq_true] at found ⊢
      obtain rfl := Option.some.inj found
      exact ⟨a, rfl, related⟩
    · have apart : (name == key) = false := beq_eq_false_iff_ne.mpr here
      simp only [apart] at found ⊢
      exact ih found

theorem handler?_guarded {opcode : String} {s : Signature}
    (signed : Opcodes.signature? opcode = some s) (depth : Nat) :
    ∃ handler, (Machine.standard depth).handler? opcode = some handler ∧
      Guarded s opcode handler :=
  lookup_beside (fun opcode handler s => Guarded s opcode handler) (standard_guarded depth) signed

end Table

end RegisterMachine
