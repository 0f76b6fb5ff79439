import RegisterMachine.Proofs.Activations

/-!
Which faults a run can meet. Whatever a step looks up in a reachable state, it finds, unless the
program itself asks for what is not there: so some faults never occur, and each of the others says
something about the state it was raised in.
-/

namespace RegisterMachine

/-- What is known of a state in which a step raises that fault. A fault of which nothing is said
here may have any reason. -/
def State.Explains (p : Program) (s : State) : Fault → Prop
  | .foreignRoutine _ _ | .emptyStack | .duplicateNote _ | .duplicateOpcode _
  | .duplicateRoutine _ | .duplicateLabel _ _ | .undeliverable _ .noCallSite => False
  | .registerOutOfRange name register count => ∃ f below r i called id callee,
      Executes p s f below r i ∧ Calls i f s.heap called ∧ p.find called = .ok id ∧
      p.routine id = .ok callee ∧ callee.registerCount < i.inputs.length ∧
      name = callee.name ∧ register = i.inputs.length - 1 ∧ count = callee.registerCount
  | .pastEnd name index length => ∃ f below r, s.calls.items = f :: below ∧
      p.routine f.routine = .ok r ∧ f.pointer = r.body.length ∧
      name = r.name ∧ index = r.body.length ∧ length = r.body.length
  | .unknownLabel name label => ∃ f below r i, Executes p s f below r i ∧ i.name = .ok label ∧
      name = r.name ∧ ∀ index, ¬Opcodes.LabelAt r.body label index
  | _ => True

/-- Why the uppermost of the frames cannot take a value. -/
def Program.obstacle? (p : Program) : List Frame → Option Obstacle
  | [] => some .noFrame
  | g :: _ =>
    match g.callSite? p with
    | none => some .noCallSite
    | some site => if site.output = none then some .noOutput else none

section Registers

variable {p : Program} {f : Frame} {r : Routine} {i : Instruction} {q : Register}

theorem Frame.Activates.receive_eq {site : Instruction} (active : f.Activates p r)
    (numbered : ∀ q ∈ p.registers, q < UInt64.size - 1) (found : f.callSite? p = some site)
    (opcode : String) (v : Value) :
    f.receive p opcode v = match site.output with
      | none => .error (.undeliverable opcode .noOutput)
      | some q => .ok { f.put q v with returned := some v } := by
  simp only [Frame.receive, found]
  cases output : site.output with
  | none => rfl
  | some q =>
    obtain ⟨begun, fetched⟩ := callSite?_eq_some_iff.mp found
    have present := Program.routine_eq_ok_iff.mp active.found
    simp only [Program.fetch?, present, Option.bind_some] at fetched
    have inside := register_lt numbered active.found active.size (List.mem_of_getElem? fetched)
      (q := q) (by simp [Instruction.registers, output])
    simp only [inside, if_true]

end Registers

section Deeds

variable {p : Program} {s t : State} {f : Frame} {below : List Frame} {r : Routine}
  {i : Instruction} {depth : Nat}

theorem handler?_leaveWith {opcode : String} (returns : opcode ∈ Opcodes.valueReturns)
    (depth : Nat) : (Machine.standard depth).handler? opcode = some Opcodes.leaveWith := by
  simp only [Opcodes.valueReturns, List.mem_cons, List.not_mem_nil, or_false] at returns
  obtain rfl | rfl := returns <;> rfl

theorem Executes.delivery {v : Value} (executes : Executes p s f below r i)
    (gives : i.opcode ∈ Opcodes.valueReturns ++ ["co-yield"]) (read : f.operand i 0 = .ok v)
    (depth : Nat) : Delivery p i.opcode v below ((Machine.standard depth).attempt p s).1
      ((Machine.standard depth).attempt p s).2.calls.items := by
  have passed : (s.advance f).calls.items = f.advance :: below :=
    Stack.items_replaceTop executes.top _
  have given : f.advance.operand i 0 = .ok v := read
  obtain returns | yields := List.mem_append.mp gives
  · rw [executes.attempt_eq (handler?_leaveWith returns depth) follows_leaveWith]
    simp only [Plan.leaveWith, given, ok_bind, pure, Except.pure]
    cases performed : (Deed.handBack v).perform p i f.advance (s.advance f) with
    | ok u t => exact Stack.items_pop passed ▸ (deliver_ok performed).1
    | error e t => exact Stack.items_pop passed ▸ (deliver_error performed _).1
  · have opcode : i.opcode = "co-yield" := List.mem_singleton.mp yields
    have known : (Machine.standard depth).handler? i.opcode = some Opcodes.yield := opcode ▸ rfl
    rw [executes.attempt_eq known follows_yield]
    simp only [Plan.yield, given, ok_bind, pure, Except.pure]
    cases performed : (Deed.yield v).perform p i f.advance (s.advance f) with
    | ok u t => exact Stack.items_pop passed ▸ (deliver_ok performed).1
    | error e t => exact Stack.items_pop passed ▸ (deliver_error performed _).1

theorem Delivery.result {opcode : String} {v : Value} {frames : List Frame}
    {res : Except Failure Bool} (numbered : ∀ q ∈ p.registers, q < UInt64.size - 1)
    (stack : p.Stacks (f :: below)) (delivery : Delivery p opcode v below res frames) :
    (p.obstacle? below = none → res = .ok true) ∧
      ∀ o, p.obstacle? below = some o → ∃ l, res = .error ⟨.undeliverable opcode o, l⟩ := by
  cases delivery with
  | nobody => simp [Program.obstacle?]
  | @received g g' rest received =>
    obtain ⟨site, q, found, output, -⟩ := Frame.receive_eq_ok received
    simp [Program.obstacle?, found, output]
  | @declined g rest e l declined =>
    obtain ⟨r, active⟩ := stack.pop.active g List.mem_cons_self
    obtain ⟨site, found, -⟩ := stack.awaiting g List.mem_cons_self
    rw [active.receive_eq numbered found] at declined
    cases output : site.output with
    | none =>
      simp only [output, Except.error.injEq] at declined
      simp [Program.obstacle?, found, output, ← declined]
    | some q => simp [output] at declined

theorem Program.Stacks.obstacle?_eq_some_iff (stack : p.Stacks (f :: below)) {o : Obstacle} :
    p.obstacle? below = some o ↔ below = [] ∧ o = .noFrame ∨
      (∃ g rest site, below = g :: rest ∧ g.callSite? p = some site ∧ site.output = none) ∧
        o = .noOutput := by
  cases below with
  | nil => simp [Program.obstacle?, eq_comm]
  | cons g rest =>
    obtain ⟨site, found, -⟩ := stack.awaiting g List.mem_cons_self
    simp [Program.obstacle?, found, eq_comm]

theorem Deed.perform_error {d : Deed} {e : Fault}
    (numbered : ∀ q ∈ p.registers, q < UInt64.size - 1) (top : s.calls.items = f :: below)
    (stack : p.Stacks (f :: below))
    (performed : d.perform p i f.advance (s.advance f) = .error e t) :
    (∃ depth limit, e = .stackOverflow depth limit) ∨ (∃ reason, e = .outputFailed reason) ∨
      ∃ o, p.obstacle? below = some o ∧ e = .undeliverable i.opcode o := by
  have passed : (s.advance f).calls.items = f.advance :: below := Stack.items_replaceTop top _
  cases perform_breaks performed with
  | print text full => exact .inr (.inl ⟨_, rfl⟩)
  | enter full | resume full => exact .inl ⟨_, _, rfl⟩
  | handBack declined | yield declined =>
    have delivery := (deliver_error declined none).1
    rw [Stack.items_pop passed] at delivery
    obtain ⟨taken, refused⟩ := delivery.result numbered stack
    cases blocked : p.obstacle? below with
    | none => cases taken blocked
    | some o =>
      obtain ⟨l, same⟩ := refused o blocked
      exact .inr (.inr ⟨o, rfl, (Failure.mk.inj (Except.error.inj same)).1⟩)

theorem Deed.explained {d : Deed} {e : Fault}
    (numbered : ∀ q ∈ p.registers, q < UInt64.size - 1) (top : s.calls.items = f :: below)
    (stack : p.Stacks (f :: below))
    (performed : d.perform p i f.advance (s.advance f) = .error e t) : s.Explains p e := by
  obtain ⟨_, _, rfl⟩ | ⟨_, rfl⟩ | ⟨o, blocked, rfl⟩ :=
    perform_error numbered top stack performed
  · trivial
  · trivial
  · obtain ⟨-, rfl⟩ | ⟨-, rfl⟩ := stack.obstacle?_eq_some_iff.mp blocked <;> trivial

theorem Refusal.explained {e : Fault} (numbered : ∀ q ∈ p.registers, q < UInt64.size - 1)
    (prepared : p.Prepared) (executes : Executes p s f below r i) (active : f.Activates p r)
    (reason : Refusal p i f.advance s.heap e) : s.Explains p e := by
  cases reason with
  | operand | kind | output | payload | zero | routine | index | field | unavailable | crash =>
    trivial
  | register mentioned outside =>
    have inside := Frame.register_lt numbered executes.found active.size
      (List.mem_of_getElem? executes.fetched) mentioned
    exact absurd inside (Nat.not_lt.mpr outside)
  | arguments called found present crowded =>
    exact ⟨f, below, r, i, _, _, _, executes, called.of_advance, found, present, crowded, rfl, rfl,
      rfl⟩
  | foreign absent =>
    have present := Program.routine_eq_ok_iff.mp executes.found
    have inside := (List.getElem?_eq_some_iff.mp present).1
    exact absurd inside (Nat.not_lt.mpr absent)
  | label found named absent =>
    obtain rfl := Except.ok.inj (executes.found.symm.trans found)
    exact ⟨f, below, r, i, executes, named, rfl, prepared.no_label found absent⟩

theorem Outcome.explained {res : Except Failure Bool} {e : Failure}
    (numbered : ∀ q ∈ p.registers, q < UInt64.size - 1) (prepared : p.Prepared)
    (sound : s.Sound p depth) (outcome : Outcome p s res t) (failed : res = .error e) :
    s.Explains p e.fault := by
  have active {f below r} (top : s.calls.items = f :: below) (found : p.routine f.routine = .ok r) :
      f.Activates p r := by
    obtain ⟨r', active⟩ := sound.stack.active f (top ▸ List.mem_cons_self)
    obtain rfl := Except.ok.inj (found.symm.trans active.found)
    exact active
  cases outcome with
  | halted | done => cases failed
  | @astray f below e top absent =>
    obtain ⟨r, active⟩ := sound.stack.active f (top ▸ List.mem_cons_self)
    exact nomatch absent.symm.trans active.found
  | @pastEnd f below r top found ended =>
    cases failed
    have within := (active top found).pointer
    have last : f.pointer = r.body.length := by omega
    exact ⟨f, below, r, top, found, last, rfl, last, rfl⟩
  | unknown =>
    cases failed
    trivial
  | refused executes reason =>
    cases failed
    exact reason.explained numbered prepared executes (active executes.top executes.found)
  | broken executes _ performed =>
    cases failed
    exact Deed.explained numbered executes.top (executes.top ▸ sound.stack) performed

theorem Executes.undelivered {v : Value} (executes : Executes p s f below r i)
    (numbered : ∀ q ∈ p.registers, q < UInt64.size - 1) (stack : p.Stacks (f :: below))
    (gives : i.opcode ∈ Opcodes.valueReturns ++ ["co-yield"]) (read : f.operand i 0 = .ok v)
    (depth : Nat) :
    ((∃ e t, (Machine.standard depth).step p s = .error e t) ↔ ∃ o, p.obstacle? below = some o) ∧
      ∀ e t, (Machine.standard depth).step p s = .error e t →
        ∃ o, p.obstacle? below = some o ∧ e.fault = .undeliverable i.opcode o := by
  obtain ⟨taken, refused⟩ := (executes.delivery gives read depth).result numbered stack
  simp only [← Machine.attempt_eq_error_iff]
  generalize (Machine.standard depth).attempt p s = ran at taken refused ⊢
  obtain ⟨res, t⟩ := ran
  cases held : p.obstacle? below with
  | none =>
    have done : res = .ok true := taken held
    simp [done]
  | some o =>
    obtain ⟨l, failed⟩ := refused o held
    have failed : res = .error ⟨.undeliverable i.opcode o, l⟩ := failed
    refine ⟨⟨fun _ => ⟨o, rfl⟩, fun _ => ⟨_, t, by rw [failed]⟩⟩, fun e u same => ⟨o, rfl, ?_⟩⟩
    rw [failed] at same
    cases same
    rfl

/-- In every reachable state of a program without the largest register a fault is one that the state
explains, and an instruction that gives a value away, and can read it, fails just when no frame
takes it. -/
theorem Machine.Reachable.faults (numbered : ∀ q ∈ p.registers, q < UInt64.size - 1)
    (prepared : p.Prepared) (reached : (standard depth).Reachable p s) :
    (∀ e t, (standard depth).step p s = .error e t → s.Explains p e.fault) ∧
      ∀ f below r i v, Executes p s f below r i →
        i.opcode ∈ Opcodes.valueReturns ++ ["co-yield"] → f.operand i 0 = .ok v →
        ((∃ e t, (standard depth).step p s = .error e t) ↔ s.calls.depth = 1 ∨
          ∃ g rest site, below = g :: rest ∧ g.callSite? p = some site ∧ site.output = none) ∧
        ∀ e t, (standard depth).step p s = .error e t → e.fault =
          .undeliverable i.opcode (if s.calls.depth = 1 then .noFrame else .noOutput) := by
  have sound := reached.sound prepared
  refine ⟨fun e t failed => ?_, fun f below r i v executes gives read => ?_⟩
  · have outcome := attempt_outcome depth p s
    rw [attempt_eq_error_iff.mpr failed] at outcome
    exact outcome.explained numbered prepared sound rfl
  · have stack : p.Stacks (f :: below) := executes.top ▸ sound.stack
    have alone : below = [] ↔ s.calls.depth = 1 := by simp [Stack.depth, executes.top]
    obtain ⟨fails, fault⟩ := executes.undelivered numbered stack gives read depth
    simp only [stack.obstacle?_eq_some_iff, alone] at fails fault
    refine ⟨fails.trans ⟨fun blocked => ?_, fun blocked => ?_⟩, fun e t failed => ?_⟩
    · obtain ⟨o, blocked⟩ := blocked
      exact blocked.imp And.left And.left
    · obtain first | noOutput := blocked
      · exact ⟨.noFrame, .inl ⟨first, rfl⟩⟩
      · exact ⟨.noOutput, .inr ⟨noOutput, rfl⟩⟩
    · obtain ⟨o, ⟨first, rfl⟩ | ⟨⟨g, rest, site, under, -⟩, rfl⟩, same⟩ := fault e t failed
      · rw [same, if_pos first]
      · have deeper : ¬s.calls.depth = 1 := by simp [Stack.depth, executes.top, under]
        rw [same, if_neg deeper]

theorem State.yielding_faults :
    let s := (Machine.standard 2).after .yielding yielding 3
    (∀ e t, (Machine.standard 2).step .yielding s = .error e t → s.Explains .yielding e.fault) ∧
      ((∃ e t, (Machine.standard 2).step .yielding s = .error e t) ↔ s.calls.depth = 1 ∨
        ∃ g rest site, s.calls.items.tail = g :: rest ∧
          g.callSite? .yielding = some site ∧ site.output = none) := by
  obtain ⟨explained, delivered⟩ :=
    Machine.Reachable.faults (by decide +kernel) Program.yielding_prepared (yielding_reachable 3)
  have executes : Executes .yielding ((Machine.standard 2).after .yielding yielding 3)
      { routine := 1, name := "seven", registers := #[.int 7], pointer := 1, home := some 0 }
      (((Machine.standard 2).after .yielding yielding 3).calls.items.tail)
      (Program.yielding.routines[1]) { opcode := "co-yield", inputs := [0] } :=
    ⟨rfl, rfl, rfl⟩
  exact ⟨explained, (delivered _ _ _ _ (.int 7) executes (by decide +kernel) rfl).1⟩

end Deeds

end RegisterMachine
