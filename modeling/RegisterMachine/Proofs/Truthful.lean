import RegisterMachine.Proofs.Aftermath
import RegisterMachine.Proofs.Catalogue
import RegisterMachine.Proofs.Isolation
import RegisterMachine.Proofs.Relocation

/-!
What a failure says is so. Its location is the instruction that was fetched, whatever the handler
did to the frames; and every name, number and kind in the fault is found in the state before the
step, where the instruction had to look for it.
-/

namespace RegisterMachine

def Fault.opcode? : Fault → Option String
  | .unknownOpcode opcode | .kindMismatch opcode .. | .payloadMismatch opcode ..
  | .missingOperand opcode _ | .missingOutput opcode | .undeliverable opcode _
  | .duplicateOpcode opcode | .divisionByZero opcode => some opcode
  | .unknownRoutine _ | .foreignRoutine .. | .unknownLabel .. | .unknownField .. | .pastEnd ..
  | .registerOutOfRange .. | .indexOutOfBounds .. | .emptyStack | .duplicateNote _
  | .duplicateRoutine _ | .duplicateLabel .. | .coroutineUnavailable _ | .crash _
  | .stackOverflow .. | .outputFailed _ => none

/-- What each fault says of the state in which the frame `f`, on top of `below`, is to execute the
instruction `i` of the function `r`. A jump asks the label table of its function, so what that lacks
the function lacks as well once the program was prepared, as a program is to be before it is
started. -/
def State.BearsOut (p : Program) (s : State) (f : Frame) (below : List Frame) (r : Routine)
    (i : Instruction) : Fault → Prop
  | .unknownOpcode _ => i.opcode ∉ Extension.standard.flatMap Extension.opcodes
  | .missingOperand _ k => i.inputs.length ≤ k
  | .missingOutput _ => i.output = none
  | .kindMismatch _ q expected found => q ∈ i.inputs ∧
      ∃ v, f.registers[q]? = some v ∧ found = v.kind ∧ found ≠ expected
  | .payloadMismatch _ demand found => found = i.payload.kind ∧ ¬demand.Met found
  | .unknownRoutine name =>
      (Calls i f s.heap name ∨ i.opcode = "co-create" ∧ i.name = .ok name) ∧
        ∀ callee ∈ p.routines, callee.name ≠ name
  | .unknownLabel routine label => (i.opcode = "jump-to" ∨ i.opcode = "jump-if") ∧
      routine = r.name ∧ i.name = .ok label ∧ (∀ index, Opcodes.target r label ≠ .ok index) ∧
      (p.Prepared → ∀ index, ¬Opcodes.LabelAt r.body label index)
  | .unknownField type field => (i.opcode = "obj-get" ∨ i.opcode = "obj-set") ∧
      i.name = .ok field ∧ ∃ id, f.operandAs .object i 0 = .ok id ∧
        type = (s.heap.object id).shape.name ∧ field ∉ (s.heap.object id).shape.fields
  | .indexOutOfBounds index length =>
      (i.opcode = "arr-get" ∨ i.opcode = "arr-set") ∧ (∃ id n, f.operandAs .array i 0 = .ok id ∧
        f.operandAs .int i 1 = .ok n ∧ index = n.toInt ∧ length = (s.heap.elements id).size ∧
        (index < 0 ∨ length ≤ index)) ∨
      i.opcode = "arr-create" ∧ length = 0 ∧ index < 0 ∧
        ∃ n, f.operandAs .int i 0 = .ok n ∧ index = n.toInt
  | .divisionByZero _ =>
      (i.opcode = "int-div" ∨ i.opcode = "int-mod") ∧ f.operandAs .int i 1 = .ok 0 ∨
      (i.opcode = "long-div" ∨ i.opcode = "long-mod") ∧ f.operandAs .long i 1 = .ok 0
  | .registerOutOfRange routine q count => (∃ name id callee, Calls i f s.heap name ∧
      p.find name = .ok id ∧ p.routine id = .ok callee ∧ routine = callee.name ∧
      q + 1 = i.inputs.length ∧ count = callee.registerCount ∧ count ≤ q) ∨
      ∃ g j, (g = f ∧ j = i ∨ below.head? = some g ∧ g.callSite? p = some j) ∧ g.Uncounted p ∧
        q ∈ j.registers ∧ routine = g.name ∧ count = 0
  | .undeliverable _ obstacle => i.opcode ∈ Opcodes.valueReturns ++ ["co-yield"] ∧
      (∃ v, f.operand i 0 = .ok v) ∧ p.obstacle? below = some obstacle
  | .coroutineUnavailable name => i.opcode = "co-invoke" ∧
      ∃ id, f.operand i 0 = .ok (.coroutine id) ∧ name = (s.heap.coroutine id).name ∧
        (s.heap.coroutine id).parked = none
  | .crash routine => i.opcode = "co-crash" ∧ routine = r.name
  | .stackOverflow depth limit => i.opcode ∈ Opcodes.calls ∧ depth = s.calls.depth + 1 ∧
      limit = s.calls.limit ∧ s.calls.depth = limit
  | .outputFailed _ => i.opcode = "debug-print" ∧ ∃ v, f.operand i 0 = .ok v ∧
      s.sink.accepted (s.heap.line v).size < (s.heap.line v).size
  | .foreignRoutine .. | .pastEnd .. | .emptyStack | .duplicateNote _ | .duplicateOpcode _
  | .duplicateRoutine _ | .duplicateLabel .. => False

section Located

variable {p : Program} {s t : State} {f : Frame} {below : List Frame} {r : Routine}
  {i : Instruction} {e : Failure}

theorem Machine.finish_location {l : Location} {x : EStateM.Result Fault State Unit}
    (finished : finish l x = (.error e, t)) : e.location = some l := by
  cases x with
  | ok u s => cases finished
  | error e s =>
    cases finished
    rfl

theorem Machine.located (m : Machine) (failed : m.step p s = .error e t) :
    (e.location = none ↔ ¬∃ f below r i, Executes p s f below r i) ∧
      ∀ f below r i, Executes p s f below r i →
        e.location = some ⟨r.name, f.pointer, i.opcode⟩ := by
  have attempted := attempt_eq_error_iff.mpr failed
  have fetched : ∀ f below r i, Executes p s f below r i →
      e.location = some ⟨r.name, f.pointer, i.opcode⟩ := by
    intro f below r i executes
    rw [m.attempt_top executes.top, executes.found] at attempted
    simp only [executes.fetched] at attempted
    exact finish_location attempted
  refine ⟨⟨fun nowhere => ?_, fun unfetched => ?_⟩, fetched⟩
  · rintro ⟨f, below, r, i, executes⟩
    exact nomatch nowhere.symm.trans (fetched f below r i executes)
  · cases top : s.calls.items with
    | nil => simp [step, Stack.top?, top] at failed
    | cons f below =>
      rw [m.attempt_top top] at attempted
      cases found : p.routine f.routine with
      | error fault =>
        rw [found] at attempted
        cases attempted
        rfl
      | ok r =>
        cases fetched : r.body[f.pointer]? with
        | none =>
          simp only [found, fetched] at attempted
          cases attempted
          rfl
        | some i => exact absurd ⟨f, below, r, i, top, found, fetched⟩ unfetched

end Located

section Standard

variable {p : Program} {s t : State} {f : Frame} {below : List Frame} {r : Routine}
  {i : Instruction} {e : Fault} {depth : Nat}

theorem Refusal.opcode_eq {h : Heap} {opcode : String} (reason : Refusal p i f h e)
    (named : e.opcode? = some opcode) : opcode = i.opcode := by
  cases reason <;> simp_all [Fault.opcode?, Frame.outOfRange]

theorem Grounds.of_advance {h : Heap} (grounds : Grounds i f.advance h e) : Grounds i f h e := by
  cases e with
  | unknownRoutine name => exact grounds.imp_left Calls.of_advance
  | _ => exact grounds

theorem Refusal.bearsOut (reason : Refusal p i f.advance s.heap e)
    (grounds : Grounds i f s.heap e) (executes : Executes p s f below r i)
    (belongs : f.Belongs p) : s.BearsOut p f below r i e := by
  obtain ⟨r', found, named, size⟩ := belongs
  obtain rfl := Except.ok.inj (executes.found.symm.trans found)
  cases reason with
  | operand absent => exact List.getElem?_eq_none_iff.mp absent
  | register mentioned outside =>
    have uncounted := (Frame.lt_or_uncounted found size (List.mem_of_getElem? executes.fetched)
      mentioned).resolve_left (Nat.not_lt.mpr outside)
    exact .inr ⟨f, i, .inl ⟨rfl, rfl⟩, uncounted, mentioned, rfl, congrArg Array.size uncounted.1⟩
  | kind named held differs => exact ⟨List.mem_of_getElem? named, _, held, rfl, differs⟩
  | output absent => exact absent
  | payload => exact ⟨rfl, grounds⟩
  | zero => exact grounds
  | routine absent =>
    refine ⟨grounds, fun callee member same => ?_⟩
    obtain ⟨id, found⟩ := Program.has_iff.mpr ⟨callee, member, same⟩
    exact nomatch absent.symm.trans found
  | @arguments name id callee called found present crowded =>
    refine .inl ⟨name, id, callee, called.of_advance, found, present, rfl, ?_, rfl, ?_⟩ <;> omega
  | foreign absent =>
    have inside := (List.getElem?_eq_some_iff.mp (Program.routine_eq_ok_iff.mp found)).1
    exact absurd inside (Nat.not_lt.mpr absent)
  | label found' named absent =>
    obtain rfl := Except.ok.inj (found.symm.trans found')
    refine ⟨grounds, rfl, named, fun index lands => ?_, fun prepared => ?_⟩
    · exact nomatch absent.symm.trans lands
    · exact prepared.no_label found absent
  | index => exact grounds
  | field => exact grounds
  | unavailable named empty => exact ⟨grounds, _, named, rfl, empty⟩
  | crash opcode => exact ⟨opcode, named⟩

theorem push_bearsOut (full : (s.advance f).calls.room = 0) (top : s.calls.items = f :: below)
    (opcode : i.opcode ∈ Opcodes.calls) :
    let e := .stackOverflow ((s.advance f).calls.depth + 1) (s.advance f).calls.limit
    s.BearsOut p f below r i e ∧ ∀ opcode, e.opcode? = some opcode → opcode = i.opcode := by
  have room : s.calls.room = (s.advance f).calls.room := by
    simp [State.advance, Stack.replaceTop, top]
  have depth : (s.advance f).calls.depth = s.calls.depth := Stack.depth_replaceTop ..
  have limit : (s.advance f).calls.limit = s.calls.limit := Stack.limit_replaceTop ..
  refine ⟨⟨opcode, by rw [depth], limit, ?_⟩, by simp [Fault.opcode?]⟩
  rw [limit, Stack.limit, room, full, Nat.add_zero]

theorem deliver_bearsOut {u : State} {v : Value}
    (ran : Effect.deliver p i.opcode v u = .error e t) (items : u.calls.items = below)
    (belong : ∀ g ∈ below, g.Belongs p) (opcode : i.opcode ∈ Opcodes.valueReturns ++ ["co-yield"])
    (read : f.operand i 0 = .ok v) :
    s.BearsOut p f below r i e ∧ ∀ opcode, e.opcode? = some opcode → opcode = i.opcode := by
  obtain ⟨-, ⟨o, blocked, rfl⟩ | ⟨g, site, q, top, waits, mentioned, uncounted, rfl⟩⟩ :=
    Effect.deliver_error_state ran (items.symm ▸ belong)
  · exact ⟨⟨opcode, ⟨v, read⟩, items ▸ blocked⟩, fun _ named => (Option.some.inj named).symm⟩
  · refine ⟨.inr ⟨g, site, .inr ⟨items ▸ top, waits⟩, uncounted, mentioned, rfl, ?_⟩, ?_⟩
    · exact congrArg Array.size uncounted.1
    · simp [Fault.opcode?, Frame.outOfRange]

theorem Deed.Fits.bearsOut {d : Deed} (fits : d.Fits p i f.advance s.heap)
    (executes : Executes p s f below r i) (belong : ∀ g ∈ below, g.Belongs p)
    (performed : d.perform p i f.advance (s.advance f) = .error e t) :
    s.BearsOut p f below r i e ∧ ∀ opcode, e.opcode? = some opcode → opcode = i.opcode := by
  have left : (s.advance f).calls.pop.items = below :=
    Stack.items_pop (Stack.items_replaceTop executes.top _)
  cases perform_breaks performed with
  | @print v line text full =>
    subst text
    have short := Nat.lt_of_le_of_ne (Sink.accepted_le _ _) full
    exact ⟨⟨fits.1, v, fits.2, short⟩, by simp [Fault.opcode?, Sink.full]⟩
  | enter full =>
    obtain ⟨name, args, id, called, -⟩ := fits
    refine push_bearsOut full executes.top ?_
    obtain same | same := called.opcode_mem <;> simp [same, Opcodes.calls]
  | resume full => exact push_bearsOut full executes.top (fits.1 ▸ by decide)
  | handBack declined =>
    exact deliver_bearsOut declined left belong (List.mem_append_left _ fits.1) fits.2
  | yield declined => exact deliver_bearsOut declined left belong (by simp [fits.1]) fits.2

theorem Machine.unlisted {opcode : String}
    (unknown : (standard depth).handler? opcode = none) :
    opcode ∉ Extension.standard.flatMap Extension.opcodes := by
  intro listed
  obtain ⟨x, member, named⟩ := List.mem_flatMap.mp listed
  obtain ⟨h, row, rfl⟩ := List.mem_map.mp named
  have held : (x.opcode h.1, h.2) ∈ (standard depth).handlers :=
    List.mem_flatMap.mpr ⟨x, member, List.mem_map_of_mem row⟩
  simpa using List.lookup_eq_none_iff.mp unknown _ held

theorem Executes.bearsOut {e : Failure} (executes : Executes p s f below r i)
    (belongs : s.Belongs p) (failed : (Machine.standard depth).attempt p s = (.error e, t)) :
    s.BearsOut p f below r i e.fault ∧
      ∀ opcode, e.fault.opcode? = some opcode → opcode = i.opcode := by
  obtain ⟨first, others⟩ := List.forall_mem_cons.mp (executes.top ▸ belongs.stack)
  cases known : (Machine.standard depth).handler? i.opcode with
  | none =>
    rw [Machine.attempt_top _ executes.top, executes.found] at failed
    simp only [executes.fetched, known, Machine.finish, Prod.mk.injEq, Except.error.injEq] at failed
    obtain ⟨rfl, -⟩ := failed
    exact ⟨Machine.unlisted known, fun _ named => (Option.some.inj named).symm⟩
  | some handler =>
    obtain ⟨plan, follows, grounded⟩ := handler?_grounded known
    obtain ⟨sound, grounds⟩ := grounded p i f.advance s.heap rfl
    rw [executes.attempt_eq known follows] at failed
    cases decided : plan p i f.advance s.heap with
    | error fault =>
      rw [decided] at sound
      simp only [decided, Prod.mk.injEq, Except.error.injEq] at failed
      obtain ⟨rfl, -⟩ := failed
      exact ⟨sound.bearsOut (grounds fault decided).of_advance executes first,
        fun _ named => sound.opcode_eq named⟩
    | ok d =>
      rw [decided] at sound
      simp only [decided] at failed
      cases performed : d.perform p i f.advance (s.advance f) with
      | ok u t' => simp [performed] at failed
      | error fault t' =>
        simp only [performed, Prod.mk.injEq, Except.error.injEq] at failed
        obtain ⟨rfl, -⟩ := failed
        exact Deed.Fits.bearsOut sound executes others performed

theorem Machine.Reachable.limit_eq (reached : (standard depth).Reachable p s) :
    s.calls.limit = depth := by
  induction reached with
  | start started =>
    obtain ⟨id, f, -, -, limit, -⟩ := start_eq_ok started
    exact limit
  | step before ih => exact (attempt_outcome depth p _).limit.trans ih

end Standard

/-- A failure is located at the instruction that was fetched, on every machine, and nowhere if none
was. On the standard machine, in every reachable state, what the fault says is so. -/
theorem Machine.truthful (p : Program) :
    (∀ (m : Machine) s e t, m.step p s = .error e t →
      (e.location = none ↔ ¬∃ f below r i, Executes p s f below r i) ∧
      ∀ f below r i, Executes p s f below r i →
        e.location = some ⟨r.name, f.pointer, i.opcode⟩) ∧
    ∀ depth s e t, (standard depth).Reachable p s → (standard depth).step p s = .error e t →
      s.calls.limit = depth ∧
      (∀ opcode, e.fault.opcode? = some opcode → ∃ l, e.location = some l ∧ l.opcode = opcode) ∧
      ((∃ f below r i, Executes p s f below r i ∧ s.BearsOut p f below r i e.fault) ∨
        ∃ f below r, s.calls.items = f :: below ∧ p.routine f.routine = .ok r ∧
          r.body.length ≤ f.pointer ∧
          e = ⟨.pastEnd r.name f.pointer r.body.length, none⟩) := by
  refine ⟨fun m s e t failed => m.located failed, fun depth s e t reached failed => ?_⟩
  have belongs := reached.belongs
  have attempted := attempt_eq_error_iff.mpr failed
  have told {f below r i} (executes : Executes p s f below r i) :=
    executes.bearsOut belongs attempted
  have outcome := attempt_outcome depth p s
  rw [attempted] at outcome
  have located := ((standard depth).located failed).2
  refine ⟨reached.limit_eq, ?_⟩
  cases outcome with
  | astray top absent =>
    obtain ⟨r, found, -⟩ := belongs.stack _ (top ▸ List.mem_cons_self)
    exact nomatch absent.symm.trans found
  | pastEnd top found ended =>
    exact ⟨by simp [Fault.opcode?], .inr ⟨_, _, _, top, found, ended, rfl⟩⟩
  | unknown executes | refused executes | broken executes =>
    obtain ⟨bears, named⟩ := told executes
    exact ⟨fun opcode names => ⟨_, rfl, (named opcode names).symm⟩,
      .inl ⟨_, _, _, _, executes, bears⟩⟩

theorem State.cramped_truthful :
    let m := Machine.standard 1
    let s := m.after .yielding cramped 1
    let e : Failure := ⟨.stackOverflow 2 1, some ⟨"main", 1, "co-invoke"⟩⟩
    m.step .yielding s = .error e (m.attempt .yielding s).2 ∧ s.calls.limit = 1 ∧
      ∃ f below r i, Executes .yielding s f below r i ∧ s.BearsOut .yielding f below r i e.fault := by
  intro m s e
  have failed : m.step .yielding s = .error e (m.attempt .yielding s).2 := rfl
  obtain ⟨-, told⟩ := Machine.truthful .yielding
  obtain ⟨limit, -, bears | ⟨f, below, r, -, -, -, same⟩⟩ := told 1 s e _
    (cramped_reachable 1) failed
  · exact ⟨failed, limit, bears⟩
  · exact nomatch (Failure.mk.inj same).1

end RegisterMachine
