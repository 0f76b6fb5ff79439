import RegisterMachine.Proofs.Grounds

/-!
The standard machine knows no opcode without a sound plan: whatever handler it finds for an
opcode follows a plan whose deeds fit the instruction and whose refusals have a reason and grounds.
-/

namespace RegisterMachine

section Representations

theorem exact_int : Representation.int.Exact := by
  intro v; cases v <;> simp [Representation.int, Value.kind]

theorem exact_long : Representation.long.Exact := by
  intro v; cases v <;> simp [Representation.long, Value.kind]

theorem exact_double : Representation.double.Exact := by
  intro v; cases v <;> simp [Representation.double, Value.kind]

theorem exact_bool : Representation.bool.Exact := by
  intro v; cases v <;> simp [Representation.bool, Value.kind]

theorem exact_array : Representation.array.Exact := by
  intro v; cases v <;> simp [Representation.array, Value.kind]

theorem exact_object : Representation.object.Exact := by
  intro v; cases v <;> simp [Representation.object, Value.kind]

theorem exact_coroutine : Representation.coroutine.Exact := by
  intro v; cases v <;> simp [Representation.coroutine, Value.kind]

end Representations

section Sound

variable {α β : Type} {p : Program} {i : Instruction} {f : Frame} {h : Heap}

theorem computing_sound {value : Instruction → Frame → Heap → Except Fault Value}
    (quiet : i.opcode ∉ Opcodes.transfers) (refuses : Refuses p i f h (value i f h)) :
    Sound p i f h (Plan.computing value p i f h) :=
  .bind refuses fun _ _ => .bind outlet_refuses fun _ out => ⟨quiet, out⟩

theorem unary_refuses {source : Representation α} (exact : source.Exact)
    (target : Representation β) (g : α → β) : Refuses p i f h (Plan.unary source target g i f h) :=
  (operandAs_refuses exact 0).bind fun _ _ => .ok _

theorem binary_refuses {source : Representation α} (exact : source.Exact)
    (target : Representation β) (g : α → α → β) :
    Refuses p i f h (Plan.binary source target g i f h) :=
  (operandAs_refuses exact 0).bind fun _ _ => (operandAs_refuses exact 1).bind fun _ _ => .ok _

theorem division_refuses {rep : Representation α} (exact : rep.Exact) (g : α → α → Option α) :
    Refuses p i f h (Plan.division rep g i f h) := by
  refine (operandAs_refuses exact 0).bind fun a _ => (operandAs_refuses exact 1).bind fun b _ => ?_
  cases g a b with
  | none => exact .error .zero
  | some c => exact .ok _

theorem constant_refuses : Refuses p i f h (Plan.constant i f h) := by
  unfold Plan.constant
  split
  · exact .ok _
  · exact .error .payload

theorem place_refuses (id : ArrayId) (index : Int) : Refuses p i f h (h.place id index) := by
  unfold Heap.place Heap.slot
  split
  · exact .ok _
  · next outside => exact .error (.index outside)

theorem fieldPlace_refuses (id : ObjectId) (field : String) :
    Refuses p i f h (h.fieldPlace id field) := by
  unfold Heap.fieldPlace Descriptor.position
  split
  · exact .ok _
  · next absent => exact .error (.field absent)

theorem map_refuses {x : Except Fault α} (refuses : Refuses p i f h x) (g : α → β) :
    Refuses p i f h (x.map g) := FailsAs.map refuses g

theorem loadElement_refuses : Refuses p i f h (Plan.loadElement i f h) :=
  (operandAs_refuses exact_array 0).bind fun _ _ => (operandAs_refuses exact_int 1).bind fun _ _ =>
    map_refuses (place_refuses _ _) _

theorem arrayLength_refuses : Refuses p i f h (Plan.arrayLength i f h) :=
  (operandAs_refuses exact_array 0).bind fun _ _ => .ok _

theorem loadField_refuses : Refuses p i f h (Plan.loadField i f h) :=
  (operandAs_refuses exact_object 0).bind fun _ _ => name_refuses.bind fun _ _ =>
    map_refuses (fieldPlace_refuses _ _) _

theorem createArray_sound (opcode : i.opcode = "arr-create") :
    Sound p i f h (Plan.createArray p i f h) := by
  refine .bind (operandAs_refuses exact_int 0) fun length read => ?_
  by_cases negative : length.toInt < 0
  · rw [if_pos negative]
    exact .index (by omega)
  · rw [if_neg negative]
    exact .bind outlet_refuses fun _ out => ⟨opcode, out, length, read, by omega⟩

theorem storeElement_sound (opcode : i.opcode = "arr-set") :
    Sound p i f h (Plan.storeElement p i f h) :=
  .bind (operandAs_refuses exact_array 0) fun _ array =>
    .bind (operandAs_refuses exact_int 1) fun index number =>
      .bind (operand_refuses 2) fun _ value =>
        .bind (place_refuses _ _) fun _ place => ⟨opcode, array, ⟨index, number, place⟩, value⟩

theorem createObject_sound (opcode : i.opcode = "obj-create") :
    Sound p i f h (Plan.createObject p i f h) :=
  .bind descriptor_refuses fun _ shape => .bind outlet_refuses fun _ out => ⟨opcode, out, shape⟩

theorem storeField_sound (opcode : i.opcode = "obj-set") :
    Sound p i f h (Plan.storeField p i f h) :=
  .bind (operandAs_refuses exact_object 0) fun _ object =>
    .bind (operand_refuses 1) fun _ value =>
      .bind name_refuses fun field named =>
        .bind (fieldPlace_refuses _ _) fun _ place => ⟨opcode, object, ⟨field, named, place⟩, value⟩

theorem createCoroutine_sound (opcode : i.opcode = "co-create") :
    Sound p i f h (Plan.createCoroutine p i f h) := by
  refine .bind name_refuses fun name named => .bind (find_refuses name) fun id found =>
    .bind ?_ fun parked entered => .bind outlet_refuses fun _ out =>
      ⟨opcode, out, named, id, found, entered⟩
  obtain ⟨r, present, -⟩ := find_eq_ok found
  simp only [Frame.enter, present, ok_bind, List.length_nil, Nat.not_lt_zero, if_false]
  exact .ok _

theorem label_sound (opcode : i.opcode = "jump-label") : Sound p i f h (Plan.label p i f h) :=
  .inl opcode

theorem target_refuses {r : Routine} {l : String} (found : p.routine f.routine = .ok r)
    (named : i.name = .ok l) : Refuses p i f h (Opcodes.target r l) := by
  cases absent : Opcodes.target r l with
  | ok index => exact .ok index
  | error e =>
    have shape : e = .unknownLabel r.name l := by
      unfold Opcodes.target at absent
      split at absent <;> cases absent
      rfl
    subst shape
    exact .error (.label found named absent)

theorem jump_sound (opcode : i.opcode = "jump-to" ∨ i.opcode = "jump-if") :
    Sound p i f h (Plan.jump p i f h) :=
  .bind name_refuses fun l named => .bind routine_refuses fun r found =>
    .bind (target_refuses found named) fun _ index => ⟨opcode, r, l, found, named, index⟩

theorem jumpIf_sound (opcode : i.opcode = "jump-if") : Sound p i f h (Plan.jumpIf p i f h) := by
  refine .bind (operandAs_refuses exact_bool 0) fun taken _ => ?_
  cases taken with
  | false => exact .inr opcode
  | true => exact jump_sound (.inr opcode)

theorem printLine_sound (opcode : i.opcode = "debug-print") :
    Sound p i f h (Plan.printLine p i f h) :=
  .bind (operand_refuses 0) fun _ value => ⟨opcode, value⟩

theorem callee_sound {name : String} {args : List Value} (called : Calls i f h name)
    (read : i.inputs.mapM f.get = .ok args) : Sound p i f h (Plan.callee p name args) := by
  refine .bind (find_refuses name) fun id found => .bind ?_ fun callee entered =>
    ⟨name, args, id, called, read, found, entered⟩
  obtain ⟨r, present, -⟩ := find_eq_ok found
  have count : args.length = i.inputs.length := by
    simpa using (congrArg List.length (Frame.mapM_get_eq_ok read)).symm
  by_cases crowded : r.registerCount < args.length
  · simp only [Frame.enter, present, ok_bind, crowded, if_true]
    exact .error (count ▸ .arguments called found present (count ▸ crowded))
  · simp only [Frame.enter, present, ok_bind, crowded, if_false]
    exact .ok _

theorem callFunction_sound (opcode : i.opcode = "fn-call") :
    Sound p i f h (Plan.callFunction p i f h) :=
  .bind inputs_refuse fun _ read => .bind name_refuses fun _ named =>
    callee_sound (.function opcode named) read

theorem callMethod_sound (opcode : i.opcode = "obj-invoke") :
    Sound p i f h (Plan.callMethod p i f h) :=
  .bind (operandAs_refuses exact_object 0) fun _ receiver => .bind name_refuses fun _ named =>
    .bind inputs_refuse fun _ read => callee_sound (.method opcode receiver named) read

theorem leave_sound (opcode : i.opcode ∈ Opcodes.plainReturns) :
    Sound p i f h (Plan.leave p i f h) := opcode

theorem leaveWith_sound (opcode : i.opcode ∈ Opcodes.valueReturns) :
    Sound p i f h (Plan.leaveWith p i f h) :=
  .bind (operand_refuses 0) fun _ value => ⟨opcode, value⟩

theorem resume_sound (opcode : i.opcode = "co-invoke") :
    Sound p i f h (Plan.resume p i f h) := by
  refine .bind (operandAs_refuses exact_coroutine 0) fun id read => ?_
  have named : f.operand i 0 = .ok (.coroutine id) := by
    obtain ⟨v, held, same⟩ := Frame.operandAs_eq_ok_iff.mp read
    cases v <;> simp only [Representation.coroutine, Option.some.injEq, reduceCtorEq] at same
    subst same
    exact held
  cases parked : (h.coroutine id).parked with
  | none => exact .unavailable named parked
  | some f => exact ⟨opcode, named, parked⟩

theorem yield_sound (opcode : i.opcode = "co-yield") : Sound p i f h (Plan.yield p i f h) :=
  .bind (operand_refuses 0) fun _ value => ⟨opcode, value⟩

theorem crash_sound (opcode : i.opcode = "co-crash") : Sound p i f h (Plan.crash p i f h) :=
  .crash opcode

end Sound

def Planned (opcode : String) (handler : Handler) : Prop :=
  ∃ plan, Follows handler plan ∧
    ∀ p i f h, i.opcode = opcode → Sound p i f h (plan p i f h)

/-- The handler of an opcode has a plan that is sound, and its refusals are grounded. -/
def Grounded (opcode : String) (handler : Handler) : Prop :=
  ∃ plan, Follows handler plan ∧ ∀ p i f h, i.opcode = opcode →
    Sound p i f h (plan p i f h) ∧ FailsAs (Grounds i f h) (plan p i f h)

section Plans

variable {α β : Type} {opcode : String} {handler : Handler}

theorem computing_grounded {value : Instruction → Frame → Heap → Except Fault Value}
    (follows : Follows handler (.computing value)) (quiet : opcode ∉ Opcodes.transfers)
    (refuses : ∀ p i f h, Refuses p i f h (value i f h))
    (grounded : ∀ i f h, i.opcode = opcode → FailsAs (Grounds i f h) (value i f h)) :
    Grounded opcode handler :=
  ⟨_, follows, fun p i f h same => ⟨computing_sound (same ▸ quiet) (refuses p i f h),
    (grounded i f h same).bind fun _ _ => outlet_grounded.bind fun _ _ => .ok _⟩⟩

theorem unary_grounded {source : Representation α} (exact : source.Exact)
    (target : Representation β) (k : α → β) (quiet : opcode ∉ Opcodes.transfers) :
    Grounded opcode (Opcodes.unary source target k) :=
  computing_grounded (follows_unary source target k) quiet
    (fun _ _ _ _ => unary_refuses exact target k) fun _ _ _ _ =>
      (operandAs_grounded source 0).bind fun _ _ => .ok _

theorem binary_grounded {source : Representation α} (exact : source.Exact)
    (target : Representation β) (k : α → α → β) (quiet : opcode ∉ Opcodes.transfers) :
    Grounded opcode (Opcodes.binary source target k) :=
  computing_grounded (follows_binary source target k) quiet
    (fun _ _ _ _ => binary_refuses exact target k) fun _ _ _ _ =>
      (operandAs_grounded source 0).bind fun _ _ =>
        (operandAs_grounded source 1).bind fun _ _ => .ok _

theorem division_grounded {rep : Representation α} (exact : rep.Exact) {k : α → α → Option α}
    (quiet : opcode ∉ Opcodes.transfers)
    (undefined : ∀ i f h a b, i.opcode = opcode → f.operandAs rep i 1 = .ok b → k a b = none →
      Grounds i f h (.divisionByZero i.opcode)) : Grounded opcode (Opcodes.division rep k) := by
  refine computing_grounded (follows_division rep k) quiet
    (fun _ _ _ _ => division_refuses exact k) fun i f h same => ?_
  refine (operandAs_grounded rep 0).bind fun a _ => (operandAs_grounded rep 1).bind fun b second => ?_
  cases result : k a b with
  | none => exact .error (undefined i f h a b same second result)
  | some c => exact .ok _

theorem constant_grounded (quiet : opcode ∉ Opcodes.transfers) :
    Grounded opcode Opcodes.constant := by
  refine computing_grounded follows_constant quiet (fun _ _ _ _ => constant_refuses)
    fun i f h _ => ?_
  unfold Plan.constant
  cases i.payload <;> first | exact .ok _ | exact .error (by simp [Grounds, PayloadDemand.Met,
    Payload.kind])

theorem copy_grounded (quiet : opcode ∉ Opcodes.transfers) : Grounded opcode Opcodes.copy :=
  computing_grounded follows_copy quiet (fun _ _ _ _ => operand_refuses 0) fun _ _ _ _ =>
    operand_grounded 0

theorem loadElement_grounded : Grounded "arr-get" Opcodes.loadElement :=
  computing_grounded follows_loadElement (by decide) (fun _ _ _ _ => loadElement_refuses)
    fun _ _ _ same => (operandAs_grounded .array 0).bind fun _ array =>
      (operandAs_grounded .int 1).bind fun _ number =>
        (place_grounded (.inl same) array number).map _

theorem arrayLength_grounded : Grounded "arr-length" Opcodes.arrayLength :=
  computing_grounded follows_arrayLength (by decide) (fun _ _ _ _ => arrayLength_refuses)
    fun _ _ _ _ => (operandAs_grounded .array 0).bind fun _ _ => .ok _

theorem loadField_grounded : Grounded "obj-get" Opcodes.loadField :=
  computing_grounded follows_loadField (by decide) (fun _ _ _ _ => loadField_refuses)
    fun _ _ _ same => (operandAs_grounded .object 0).bind fun _ object =>
      name_grounded.bind fun _ named => (fieldPlace_grounded (.inl same) object named).map _

theorem createArray_grounded : Grounded "arr-create" Opcodes.createArray := by
  refine ⟨_, follows_createArray, fun _ _ _ _ same => ⟨createArray_sound same, ?_⟩⟩
  refine (operandAs_grounded .int 0).bind fun length read => ?_
  split
  · next negative => exact .error (.inr ⟨same, rfl, negative, length, read, rfl⟩)
  · exact outlet_grounded.bind fun _ _ => .ok _

theorem storeElement_grounded : Grounded "arr-set" Opcodes.storeElement :=
  ⟨_, follows_storeElement, fun _ _ _ _ same => ⟨storeElement_sound same,
    (operandAs_grounded .array 0).bind fun _ array =>
      (operandAs_grounded .int 1).bind fun _ number => (operand_grounded 2).bind fun _ _ =>
        (place_grounded (.inr same) array number).bind fun _ _ => .ok _⟩⟩

theorem createObject_grounded : Grounded "obj-create" Opcodes.createObject :=
  ⟨_, follows_createObject, fun _ _ _ _ same => ⟨createObject_sound same,
    descriptor_grounded.bind fun _ _ => outlet_grounded.bind fun _ _ => .ok _⟩⟩

theorem storeField_grounded : Grounded "obj-set" Opcodes.storeField :=
  ⟨_, follows_storeField, fun _ _ _ _ same => ⟨storeField_sound same,
    (operandAs_grounded .object 0).bind fun _ object => (operand_grounded 1).bind fun _ _ =>
      name_grounded.bind fun _ named =>
        (fieldPlace_grounded (.inr same) object named).bind fun _ _ => .ok _⟩⟩

theorem createCoroutine_grounded : Grounded "co-create" Opcodes.createCoroutine :=
  ⟨_, follows_createCoroutine, fun _ _ _ _ same => ⟨createCoroutine_sound same,
    name_grounded.bind fun _ named => (find_grounded (.inr ⟨same, named⟩)).bind fun id _ =>
      (enter_grounded id []).bind fun _ _ => outlet_grounded.bind fun _ _ => .ok _⟩⟩

theorem label_grounded : Grounded "jump-label" Opcodes.label :=
  ⟨_, follows_label, fun _ _ _ _ same => ⟨label_sound same, .ok _⟩⟩

theorem planJump_grounded {p : Program} {i : Instruction} {f : Frame} {h : Heap}
    (jumps : i.opcode = "jump-to" ∨ i.opcode = "jump-if") :
    FailsAs (Grounds i f h) (Plan.jump p i f h) :=
  name_grounded.bind fun label _ => routine_grounded.bind fun r _ =>
    (target_grounded jumps r label).bind fun _ _ => .ok _

theorem jump_grounded : Grounded "jump-to" Opcodes.jump :=
  ⟨_, follows_jump, fun _ _ _ _ same => ⟨jump_sound (.inl same), planJump_grounded (.inl same)⟩⟩

theorem jumpIf_grounded : Grounded "jump-if" Opcodes.jumpIf := by
  refine ⟨_, follows_jumpIf, fun _ _ _ _ same => ⟨jumpIf_sound same, ?_⟩⟩
  refine (operandAs_grounded .bool 0).bind fun taken _ => ?_
  cases taken with
  | false => exact .ok _
  | true => exact planJump_grounded (.inr same)

theorem printLine_grounded : Grounded "debug-print" Opcodes.printLine :=
  ⟨_, follows_printLine, fun _ _ _ _ same => ⟨printLine_sound same,
    (operand_grounded 0).bind fun _ _ => .ok _⟩⟩

theorem callee_grounded {p : Program} {i : Instruction} {f : Frame} {h : Heap} {name : String}
    (called : Calls i f h name) (args : List Value) :
    FailsAs (Grounds i f h) (Plan.callee p name args) :=
  (find_grounded (.inl called)).bind fun id _ => (enter_grounded id args).bind fun _ _ => .ok _

theorem callFunction_grounded : Grounded "fn-call" Opcodes.callFunction :=
  ⟨_, follows_callFunction, fun _ _ _ _ same => ⟨callFunction_sound same,
    inputs_grounded.bind fun args _ => name_grounded.bind fun _ named =>
      callee_grounded (.function same named) args⟩⟩

theorem callMethod_grounded : Grounded "obj-invoke" Opcodes.callMethod :=
  ⟨_, follows_callMethod, fun _ _ _ _ same => ⟨callMethod_sound same,
    (operandAs_grounded .object 0).bind fun _ receiver => name_grounded.bind fun _ named =>
      inputs_grounded.bind fun args _ => callee_grounded (.method same receiver named) args⟩⟩

theorem leave_grounded (returns : opcode ∈ Opcodes.plainReturns) :
    Grounded opcode Opcodes.leave :=
  ⟨_, follows_leave, fun _ _ _ _ same => ⟨leave_sound (same ▸ returns), .ok _⟩⟩

theorem leaveWith_grounded (returns : opcode ∈ Opcodes.valueReturns) :
    Grounded opcode Opcodes.leaveWith :=
  ⟨_, follows_leaveWith, fun _ _ _ _ same => ⟨leaveWith_sound (same ▸ returns),
    (operand_grounded 0).bind fun _ _ => .ok _⟩⟩

theorem resume_grounded : Grounded "co-invoke" Opcodes.resume := by
  refine ⟨_, follows_resume, fun _ _ _ h same => ⟨resume_sound same, ?_⟩⟩
  refine (operandAs_grounded .coroutine 0).bind fun id _ => ?_
  cases (h.coroutine id).parked with
  | none => exact .error same
  | some parked => exact .ok _

theorem yield_grounded : Grounded "co-yield" Opcodes.yield :=
  ⟨_, follows_yield, fun _ _ _ _ same => ⟨yield_sound same,
    (operand_grounded 0).bind fun _ _ => .ok _⟩⟩

theorem crash_grounded : Grounded "co-crash" Opcodes.crash :=
  ⟨_, follows_crash, fun _ _ _ _ same => ⟨crash_sound same, .error trivial⟩⟩

end Plans

section Table

variable {α : Type}

theorem calculator_grounded {x : Extension} (c : Opcodes.Calculator α) (exact : c.rep.Exact)
    (handlers : x.handlers = c.handlers) (quiet : ∀ opcode ∈ x.opcodes, opcode ∉ Opcodes.transfers)
    (undefined : ∀ i f h b, i.opcode = x.opcode "div" ∨ i.opcode = x.opcode "mod" →
      f.operandAs c.rep i 1 = .ok b → (∃ a, c.div? a b = none ∨ c.mod? a b = none) →
      Grounds i f h (.divisionByZero i.opcode)) : ∀ e ∈ x.table, Grounded e.1 e.2 := by
  simp only [Extension.table, Extension.opcodes, handlers, Opcodes.Calculator.handlers,
    Opcodes.comparison, List.map_cons, List.map_nil, List.forall_mem_cons] at quiet ⊢
  obtain ⟨add, sub, mul, div, mod, equal, less, greater, val, -⟩ := quiet
  refine ⟨binary_grounded exact _ _ add, binary_grounded exact _ _ sub,
    binary_grounded exact _ _ mul,
    division_grounded exact div fun i f h a b same second result => ?_,
    division_grounded exact mod fun i f h a b same second result => ?_,
    binary_grounded exact _ _ equal, binary_grounded exact _ _ less,
    binary_grounded exact _ _ greater, constant_grounded val, by simp⟩
  · exact undefined i f h b (.inl same) second ⟨a, .inl result⟩
  · exact undefined i f h b (.inr same) second ⟨a, .inr result⟩

theorem int_grounded : ∀ e ∈ Extension.int.table, Grounded e.1 e.2 := by
  refine calculator_grounded .int exact_int rfl (by decide) fun i f h b opcode second result => ?_
  obtain ⟨a, result | result⟩ := result <;>
  · have zero : b = 0 := by simpa [Opcodes.Calculator.int] using result
    exact .inl ⟨opcode, zero ▸ second⟩

theorem long_grounded : ∀ e ∈ Extension.long.table, Grounded e.1 e.2 := by
  refine calculator_grounded .long exact_long rfl (by decide) fun i f h b opcode second result => ?_
  obtain ⟨a, result | result⟩ := result <;>
  · have zero : b = 0 := by simpa [Opcodes.Calculator.long] using result
    exact .inr ⟨opcode, zero ▸ second⟩

theorem double_grounded : ∀ e ∈ Extension.double.table, Grounded e.1 e.2 := by
  refine calculator_grounded .double exact_double rfl (by decide) fun i f h b _ _ result => ?_
  obtain ⟨a, result | result⟩ := result <;> cases result

theorem bool_grounded : ∀ e ∈ Extension.bool.table, Grounded e.1 e.2 := by
  simp only [Extension.table, Extension.bool, Opcodes.logic, Extension.opcode, List.map_cons,
    List.map_nil, List.forall_mem_cons, String.reduceAppend]
  exact ⟨binary_grounded exact_bool _ _ (by decide), binary_grounded exact_bool _ _ (by decide),
    binary_grounded exact_bool _ _ (by decide), unary_grounded exact_bool _ _ (by decide),
    constant_grounded (by decide), by simp⟩

theorem casts_grounded {x : Extension} (cast : x ∈ [Extension.castInt, .castLong, .castDouble]) :
    ∀ e ∈ x.table, Grounded e.1 e.2 := by
  simp only [List.mem_cons, List.not_mem_nil, or_false] at cast
  obtain rfl | rfl | rfl := cast
  · simp only [Extension.table, Extension.castInt, Opcodes.fromInt, Extension.opcode, List.map_cons,
      List.map_nil, List.forall_mem_cons, String.reduceAppend]
    exact ⟨unary_grounded exact_int _ _ (by decide), unary_grounded exact_int _ _ (by decide),
      by simp⟩
  · simp only [Extension.table, Extension.castLong, Opcodes.fromLong, Extension.opcode,
      List.map_cons, List.map_nil, List.forall_mem_cons, String.reduceAppend]
    exact ⟨unary_grounded exact_long _ _ (by decide), unary_grounded exact_long _ _ (by decide),
      by simp⟩
  · simp only [Extension.table, Extension.castDouble, Opcodes.fromDouble, Extension.opcode,
      List.map_cons, List.map_nil, List.forall_mem_cons, String.reduceAppend]
    exact ⟨unary_grounded exact_double _ _ (by decide), unary_grounded exact_double _ _ (by decide),
      by simp⟩

theorem functions_grounded : ∀ e ∈ Extension.functions.table, Grounded e.1 e.2 := by
  simp only [Extension.table, Extension.functions, Extension.opcode, List.map_cons, List.map_nil,
    List.forall_mem_cons, String.reduceAppend]
  exact ⟨callFunction_grounded, leave_grounded (by decide), leaveWith_grounded (by decide),
    leave_grounded (by decide), leaveWith_grounded (by decide), by simp⟩

theorem jumps_grounded : ∀ e ∈ Extension.jumps.table, Grounded e.1 e.2 := by
  simp only [Extension.table, Extension.jumps, Extension.opcode, List.map_cons, List.map_nil,
    List.forall_mem_cons, String.reduceAppend]
  exact ⟨jump_grounded, jumpIf_grounded, label_grounded, by simp⟩

theorem objects_grounded : ∀ e ∈ Extension.objects.table, Grounded e.1 e.2 := by
  simp only [Extension.table, Extension.objects, Extension.opcode, List.map_cons, List.map_nil,
    List.forall_mem_cons, String.reduceAppend]
  exact ⟨createObject_grounded, loadField_grounded, storeField_grounded, callMethod_grounded,
    by simp⟩

theorem arrays_grounded : ∀ e ∈ Extension.arrays.table, Grounded e.1 e.2 := by
  simp only [Extension.table, Extension.arrays, Extension.opcode, List.map_cons, List.map_nil,
    List.forall_mem_cons, String.reduceAppend]
  exact ⟨createArray_grounded, loadElement_grounded, storeElement_grounded, arrayLength_grounded,
    by simp⟩

theorem coroutines_grounded : ∀ e ∈ Extension.coroutines.table, Grounded e.1 e.2 := by
  simp only [Extension.table, Extension.coroutines, Extension.opcode, List.map_cons, List.map_nil,
    List.forall_mem_cons, String.reduceAppend]
  exact ⟨createCoroutine_grounded, resume_grounded, yield_grounded, crash_grounded, by simp⟩

theorem copying_grounded : ∀ e ∈ Extension.copying.table, Grounded e.1 e.2 :=
  List.forall_mem_singleton.mpr (copy_grounded (by decide))

theorem printing_grounded : ∀ e ∈ Extension.printing.table, Grounded e.1 e.2 :=
  List.forall_mem_singleton.mpr printLine_grounded

theorem standard_grounded : ∀ x ∈ Extension.standard, ∀ e ∈ x.table, Grounded e.1 e.2 := by
  simp only [Extension.standard, List.forall_mem_cons]
  exact ⟨int_grounded, long_grounded, double_grounded, bool_grounded, casts_grounded (by simp),
    casts_grounded (by simp), casts_grounded (by simp), functions_grounded, jumps_grounded,
    objects_grounded, arrays_grounded, coroutines_grounded, copying_grounded, printing_grounded,
    by simp⟩

/-- What the rows of the standard tables have in common, what a look-up finds has as well. -/
theorem handler?_row (holds : String → Handler → Prop)
    (rows : ∀ x ∈ Extension.standard, ∀ e ∈ x.table, holds e.1 e.2) {depth : Nat} {opcode : String}
    {handler : Handler} (found : (Machine.standard depth).handler? opcode = some handler) :
    holds opcode handler := by
  obtain ⟨before, after, split, -⟩ := List.lookup_eq_some_iff.mp found
  have listed : (opcode, handler) ∈ (Machine.standard depth).handlers := by simp [split]
  obtain ⟨x, member, row⟩ := List.mem_flatMap.mp listed
  exact rows x member _ row

theorem handler?_mem {holds : Handler → Prop}
    (all : ∀ x ∈ Extension.standard, ∀ e ∈ x.handlers, holds e.2) {depth : Nat} {opcode : String}
    {handler : Handler} (found : (Machine.standard depth).handler? opcode = some handler) :
    holds handler :=
  handler?_row (fun _ => holds) (fun x member => List.forall_mem_map.mpr (all x member)) found

theorem handler?_grounded {depth : Nat} {opcode : String} {handler : Handler}
    (found : (Machine.standard depth).handler? opcode = some handler) : Grounded opcode handler :=
  handler?_row Grounded standard_grounded found

theorem handler?_planned {depth : Nat} {opcode : String} {handler : Handler}
    (found : (Machine.standard depth).handler? opcode = some handler) :
    Planned opcode handler := by
  obtain ⟨plan, follows, grounded⟩ := handler?_grounded found
  exact ⟨plan, follows, fun p i f h same => (grounded p i f h same).1⟩

end Table

end RegisterMachine
