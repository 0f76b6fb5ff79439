import RegisterMachine.Proofs.Step

/-!
What a step does to the activations. A `Move` is an outcome seen from the frames alone, those on
the stack and those at rest in coroutines: which opcode moved which frame, what became of the
frame below, and whether the step failed. What holds along every run of the standard machine is
proved by cases on the move of each step.
-/

namespace RegisterMachine

section Effects

variable {p : Program} {s t : State} {opcode : String} {v : Value} {e : Fault}

theorem Effect.deliver_run (p : Program) (opcode : String) (v : Value) (s : State) :
    Effect.deliver p opcode v s = match s.calls.items with
      | [] => .error (.undeliverable opcode .noFrame) s
      | g :: _ => match g.receive p opcode v with
        | .ok g' => .ok () { s with calls := s.calls.replaceTop g' }
        | .error e => .error e s := by
  simp only [deliver, bind_run, get_run, Stack.top?]
  cases s.calls.items with
  | nil => rfl
  | cons g rest =>
    simp only [List.head?_cons, Frame.receive]
    cases g.callSite? p with
    | none => rfl
    | some site =>
      cases output : site.output with
      | none => simp only [output]; rfl
      | some r =>
        simp only [output, check_bind, Frame.set_eq]
        by_cases inside : r < g.registers.size
        · simp only [inside, if_true]
          rfl
        · simp only [inside, if_false]

theorem Effect.print_run (text : String) (s : State) :
    Effect.print text s =
      if s.sink.accepted text.toUTF8.data.size = text.toUTF8.data.size then
        .ok () { s with sink := s.sink.append text.toUTF8.data }
      else .error Sink.full { s with sink := s.sink.append text.toUTF8.data } := by
  simp only [print, bind_run, modifyGet_run]
  by_cases complete : s.sink.accepted text.toUTF8.data.size = text.toUTF8.data.size
  · simp only [complete, decide_true, Bool.not_true, Bool.false_eq_true, if_false, if_true]
    rfl
  · simp only [complete, decide_false, Bool.not_false, if_true, if_false]
    rfl

end Effects

theorem Frame.receive_eq_ok {p : Program} {opcode : String} {v : Value} {f g : Frame}
    (received : f.receive p opcode v = .ok g) : ∃ site r, f.callSite? p = some site ∧
      site.output = some r ∧ r < f.registers.size ∧ g = { f.put r v with returned := some v } := by
  unfold receive at received
  cases found : f.callSite? p with
  | none => simp [found] at received
  | some site =>
    cases output : site.output with
    | none => simp [found, output] at received
    | some r =>
      by_cases inside : r < f.registers.size
      · simp only [found, output, inside, if_true, Except.ok.injEq] at received
        exact ⟨site, r, rfl, output, inside, received.symm⟩
      · simp [found, output, inside] at received

/-- The frame goes on as `g`: beyond its pointer only the output register of the instruction can
be another, and the pointer is one further unless the instruction jumps. -/
structure Frame.Continues (p : Program) (i : Instruction) (f g : Frame) : Prop where
  routine : g.routine = f.routine
  name : g.name = f.name
  returned : g.returned = f.returned
  home : g.home = f.home
  size : g.registers.size = f.registers.size
  registers : ∀ q, i.output ≠ some q → g.registers[q]? = f.registers[q]?
  pointer : g.pointer = f.pointer + 1 ∨ (i.opcode = "jump-to" ∨ i.opcode = "jump-if") ∧
    ∃ r l, p.routine f.routine = .ok r ∧ i.name = .ok l ∧ Opcodes.target r l = .ok g.pointer

/-- A value handed to the uppermost of the frames, which takes it or declines. -/
inductive Delivery (p : Program) (opcode : String) (v : Value) :
    List Frame → Except Failure Bool → List Frame → Prop where
  | received {g g' rest} (received : g.receive p opcode v = .ok g') :
      Delivery p opcode v (g :: rest) (.ok true) (g' :: rest)
  | nobody {l} : Delivery p opcode v [] (.error ⟨.undeliverable opcode .noFrame, l⟩) []
  | declined {g rest e l} (declined : g.receive p opcode v = .error e) :
      Delivery p opcode v (g :: rest) (.error ⟨e, l⟩) (g :: rest)

namespace Delivery

variable {p : Program} {opcode : String} {v : Value} {frames frames' : List Frame}
  {res : Except Failure Bool}

theorem map_eq {α : Type} {look : Frame → α} (delivery : Delivery p opcode v frames res frames')
    (kept : ∀ g g', g.receive p opcode v = .ok g' → look g' = look g) :
    frames'.map look = frames.map look := by
  cases delivery with
  | received received => rw [List.map_cons, List.map_cons, kept _ _ received]
  | nobody | declined => rfl

theorem length_eq (delivery : Delivery p opcode v frames res frames') :
    frames'.length = frames.length := by
  cases delivery <;> rfl

end Delivery

/-- What executing `i` in the frame `f` on top of `below` does to the frames. -/
inductive Move (p : Program) (s : State) (f : Frame) (below : List Frame) (i : Instruction) :
    Except Failure Bool → State → Prop where
  | proceeds {t g} (quiet : i.opcode ∉ Opcodes.transfers) (kept : f.Continues p i g)
      (frames : t.calls.items = g :: below) (handles : t.heap.coroutines = s.heap.coroutines) :
      Move p s f below i (.ok true) t
  | creates {t g name id parked} (opcode : i.opcode = "co-create") (named : i.name = .ok name)
      (found : p.find name = .ok id) (entered : Frame.enter p id [] = .ok parked)
      (kept : f.Continues p i g) (frames : t.calls.items = g :: below)
      (handles : t.heap.coroutines = s.heap.coroutines.push ⟨name, some parked⟩) :
      Move p s f below i (.ok true) t
  | fails {e t} (frames : t.calls.items = f.advance :: below)
      (handles : t.heap.coroutines = s.heap.coroutines)
      (room : ∀ depth limit, e.fault = .stackOverflow depth limit → i.opcode ≠ "co-invoke") :
      Move p s f below i (.error e) t
  | enters {t callee name args id} (called : Calls i f s.heap name)
      (read : i.inputs.mapM f.get = .ok args) (found : p.find name = .ok id)
      (entered : Frame.enter p id args = .ok callee)
      (frames : t.calls.items = callee :: f.advance :: below)
      (handles : t.heap.coroutines = s.heap.coroutines) : Move p s f below i (.ok true) t
  | resumes {t id parked} (opcode : i.opcode = "co-invoke")
      (named : f.operand i 0 = .ok (.coroutine id))
      (rested : (s.heap.coroutine id).parked = some parked)
      (frames : t.calls.items = { parked with home := some id } :: f.advance :: below)
      (handles : t.heap = s.heap.park id none) : Move p s f below i (.ok true) t
  | loses {e t id parked depth limit} (opcode : i.opcode = "co-invoke")
      (named : f.operand i 0 = .ok (.coroutine id))
      (rested : (s.heap.coroutine id).parked = some parked)
      (full : e.fault = .stackOverflow depth limit) (frames : t.calls.items = f.advance :: below)
      (handles : t.heap = s.heap.park id none) : Move p s f below i (.error e) t
  | leaves {t} (opcode : i.opcode ∈ Opcodes.plainReturns) (frames : t.calls.items = below)
      (handles : t.heap = s.heap) : Move p s f below i (.ok true) t
  | hands {r t v} (opcode : i.opcode ∈ Opcodes.valueReturns) (read : f.operand i 0 = .ok v)
      (delivery : Delivery p i.opcode v below r t.calls.items) (handles : t.heap = s.heap) :
      Move p s f below i r t
  | rests {r t v} (opcode : i.opcode = "co-yield") (read : f.operand i 0 = .ok v)
      (delivery : Delivery p i.opcode v below r t.calls.items)
      (handles : t.heap = s.heap.rest f.advance) : Move p s f below i r t

/-- What a deed of the frame `f` breaks off with, and the state that it leaves: there was no room
for all of a line or for a frame, or a value was not delivered. -/
inductive Deed.Breaks (p : Program) (i : Instruction) (f : Frame) (s : State) :
    Deed → Fault → State → Prop where
  | print {v} {line : Array UInt8} (text : line = (s.heap.render v ++ "\n").toUTF8.data)
      (full : s.sink.accepted line.size ≠ line.size) :
      Breaks p i f s (.print v) Sink.full { s with sink := s.sink.append line }
  | enter {callee} (full : s.calls.room = 0) :
      Breaks p i f s (.enter callee) (.stackOverflow (s.calls.depth + 1) s.calls.limit) s
  | resume {id parked} (full : s.calls.room = 0) :
      Breaks p i f s (.resume id parked) (.stackOverflow (s.calls.depth + 1) s.calls.limit)
        { s with heap := s.heap.park id none }
  | handBack {v e t}
      (declined : Effect.deliver p i.opcode v { s with calls := s.calls.pop } = .error e t) :
      Breaks p i f s (.handBack v) e t
  | yield {v e t} (declined : Effect.deliver p i.opcode v
        { s with calls := s.calls.pop, heap := s.heap.rest f } = .error e t) :
      Breaks p i f s (.yield v) e t

section Moves

variable {p : Program} {s t : State} {f : Frame} {below : List Frame} {r : Routine}
  {i : Instruction}

theorem Calls.of_advance {h : Heap} {name : String} (called : Calls i f.advance h name) :
    Calls i f h name := by
  cases called with
  | function opcode named => exact .function opcode named
  | method opcode receiver named => exact .method opcode receiver named

theorem Frame.continues_advance (p : Program) (i : Instruction) (f : Frame) :
    f.Continues p i f.advance := ⟨rfl, rfl, rfl, rfl, rfl, fun _ _ => rfl, .inl rfl⟩

theorem Frame.continues_put {f : Frame} {r : Register} {v : Value}
    (out : f.advance.outlet i = .ok r) : f.Continues p i (f.advance.put r v) := by
  obtain ⟨output, -⟩ := Frame.outlet_eq_ok_iff.mp out
  refine ⟨rfl, rfl, rfl, rfl, by simp [advance], fun q apart => ?_, .inl rfl⟩
  exact put_getElem? f.advance v (fun same => apart (same ▸ output))

theorem Change.Fits.continues {c : Change} {h : Heap} (fits : c.Fits p i f.advance h) :
    f.Continues p i (c.frame h f.advance) := by
  cases c with
  | nothing | element | cell => exact f.continues_advance p i
  | jump index => exact ⟨rfl, rfl, rfl, rfl, rfl, fun _ _ => rfl, .inr fits⟩
  | register r v => exact Frame.continues_put fits.2
  | array r length => exact Frame.continues_put fits.2.1
  | object r shape => exact Frame.continues_put fits.2.1
  | coroutine r name parked => exact Frame.continues_put fits.2.1

theorem deliver_ok {opcode : String} {v : Value} {u : Unit}
    (ran : Effect.deliver p opcode v s = .ok u t) :
    Delivery p opcode v s.calls.items (.ok true) t.calls.items ∧ t.heap = s.heap := by
  rw [Effect.deliver_run] at ran
  cases items : s.calls.items with
  | nil => simp [items] at ran
  | cons g rest =>
    cases received : g.receive p opcode v with
    | error e => simp [items, received] at ran
    | ok g' =>
      simp only [items, received, EStateM.Result.ok.injEq] at ran
      obtain ⟨-, rfl⟩ := ran
      exact ⟨Stack.items_replaceTop items g' ▸ .received received, rfl⟩

theorem deliver_error {opcode : String} {v : Value} {e : Fault}
    (ran : Effect.deliver p opcode v s = .error e t) (l : Option Location) :
    Delivery p opcode v s.calls.items (.error ⟨e, l⟩) t.calls.items ∧ t.heap = s.heap := by
  rw [Effect.deliver_run] at ran
  cases items : s.calls.items with
  | nil =>
    simp only [items, EStateM.Result.error.injEq] at ran
    obtain ⟨rfl, rfl⟩ := ran
    rw [items]
    exact ⟨.nobody, rfl⟩
  | cons g rest =>
    cases declined : g.receive p opcode v with
    | ok g' => simp [items, declined] at ran
    | error e' =>
      simp only [items, declined, EStateM.Result.error.injEq] at ran
      obtain ⟨rfl, rfl⟩ := ran
      rw [items]
      exact ⟨.declined declined, rfl⟩

theorem push_ok {g : Frame} {u : Unit} (ran : Effect.push g s = .ok u t) :
    t.calls.items = g :: s.calls.items ∧ t.heap = s.heap := by
  rw [Effect.push_run] at ran
  cases pushed : s.calls.push g with
  | error e => simp [pushed] at ran
  | ok calls =>
    simp only [pushed, EStateM.Result.ok.injEq] at ran
    obtain ⟨-, rfl⟩ := ran
    exact ⟨(Stack.push_eq_ok_iff.mp pushed).1, rfl⟩

theorem push_error {g : Frame} {e : Fault} (ran : Effect.push g s = .error e t) :
    t = s ∧ e = .stackOverflow (s.calls.depth + 1) s.calls.limit ∧ s.calls.room = 0 := by
  rw [Effect.push_run] at ran
  cases pushed : s.calls.push g with
  | ok calls => simp [pushed] at ran
  | error e' =>
    simp only [pushed, EStateM.Result.error.injEq] at ran
    obtain ⟨rfl, rfl⟩ := ran
    obtain ⟨full, deep⟩ := Stack.push_eq_error_iff.mp pushed
    exact ⟨rfl, deep, full⟩

theorem Deed.perform_breaks {d : Deed} {e : Fault} (ran : d.perform p i f s = .error e t) :
    d.Breaks p i f s e t := by
  cases d with
  | change c => simp [perform] at ran
  | print v =>
    simp only [perform, Effect.print_run] at ran
    split at ran
    · cases ran
    · next full =>
      obtain ⟨rfl, rfl⟩ := EStateM.Result.error.inj ran
      exact .print rfl full
  | enter callee =>
    obtain ⟨rfl, rfl, full⟩ := push_error ran
    exact .enter full
  | resume id parked =>
    obtain ⟨rfl, rfl, full⟩ := push_error ran
    exact .resume full
  | leave => simp [perform] at ran
  | handBack v => exact .handBack ran
  | yield v => exact .yield ran

theorem Change.Fits.move {c : Change} (fits : c.Fits p i f.advance s.heap)
    (frames : t.calls.items = c.frame s.heap f.advance :: below)
    (handles : t.heap = c.heap s.heap) : Move p s f below i (.ok true) t := by
  have quiet {opcode : String} (same : i.opcode = opcode)
      (other : opcode ∉ Opcodes.transfers) : i.opcode ∉ Opcodes.transfers := same ▸ other
  have kept := fits.continues
  cases c with
  | nothing =>
    refine .proceeds ?_ kept frames (congrArg Heap.coroutines handles)
    obtain same | same := fits <;> exact quiet same (by decide)
  | register r v => exact .proceeds fits.1 kept frames (congrArg Heap.coroutines handles)
  | jump index =>
    refine .proceeds ?_ kept frames (congrArg Heap.coroutines handles)
    obtain same | same := fits.1 <;> exact quiet same (by decide)
  | array | object | element | cell =>
    exact .proceeds (quiet fits.1 (by decide)) kept frames (by rw [handles]; rfl)
  | coroutine r name parked =>
    obtain ⟨opcode, -, named, id, found, entered⟩ := fits
    exact .creates opcode named found entered kept frames (congrArg Heap.coroutines handles)

theorem Deed.Fits.move_done {d : Deed} (fits : d.Fits p i f.advance s.heap)
    (top : s.calls.items = f :: below)
    (performed : d.perform p i f.advance (s.advance f) = .ok () t) :
    Move p s f below i (.ok true) { t with dispatched := t.dispatched + 1 } := by
  have passed : (s.advance f).calls.items = f.advance :: below := Stack.items_replaceTop top _
  cases d with
  | change c =>
    simp only [perform, EStateM.Result.ok.injEq, true_and] at performed
    subst performed
    exact fits.move (Stack.items_replaceTop passed _) rfl
  | print v =>
    simp only [perform, Effect.print_run] at performed
    split at performed <;> cases performed
    exact .proceeds (fits.1 ▸ by decide) (f.continues_advance p i) passed rfl
  | enter callee =>
    obtain ⟨name, args, id, called, read, found, entered⟩ := fits
    obtain ⟨frames, heap⟩ := push_ok performed
    exact .enters called.of_advance read found entered (passed ▸ frames)
      (congrArg Heap.coroutines heap)
  | resume id parked =>
    obtain ⟨opcode, named, rested⟩ := fits
    obtain ⟨frames, heap⟩ := push_ok performed
    exact .resumes opcode named rested (passed ▸ frames) heap
  | leave =>
    simp only [perform, EStateM.Result.ok.injEq, true_and] at performed
    subst performed
    exact .leaves fits (Stack.items_pop passed) rfl
  | handBack v =>
    obtain ⟨delivery, heap⟩ := deliver_ok performed
    rw [Stack.items_pop passed] at delivery
    exact .hands fits.1 fits.2 delivery heap
  | yield v =>
    obtain ⟨delivery, heap⟩ := deliver_ok performed
    rw [Stack.items_pop passed] at delivery
    exact .rests fits.1 fits.2 delivery heap

theorem Deed.Fits.move_broken {d : Deed} {e : Fault} (l : Option Location)
    (fits : d.Fits p i f.advance s.heap) (top : s.calls.items = f :: below)
    (performed : d.perform p i f.advance (s.advance f) = .error e t) :
    Move p s f below i (.error ⟨e, l⟩) t := by
  have passed : (s.advance f).calls.items = f.advance :: below := Stack.items_replaceTop top _
  cases perform_breaks performed with
  | print text full => exact .fails passed rfl fun depth limit deep => nomatch deep
  | enter full =>
    obtain ⟨name, args, id, called, -⟩ := fits
    refine .fails passed rfl fun _ _ _ => ?_
    obtain same | same := called.opcode_mem <;> simp [same]
  | resume full =>
    obtain ⟨opcode, named, rested⟩ := fits
    exact .loses opcode named rested rfl passed rfl
  | handBack declined =>
    obtain ⟨delivery, heap⟩ := deliver_error declined l
    rw [Stack.items_pop passed] at delivery
    exact .hands fits.1 fits.2 delivery heap
  | yield declined =>
    obtain ⟨delivery, heap⟩ := deliver_error declined l
    rw [Stack.items_pop passed] at delivery
    exact .rests fits.1 fits.2 delivery heap

theorem Outcome.move {res : Except Failure Bool} (outcome : Outcome p s res t)
    (executes : Executes p s f below r i) : Move p s f below i res t := by
  cases outcome with
  | halted empty => exact nomatch empty.symm.trans executes.top
  | astray top absent =>
    obtain ⟨rfl, -⟩ := List.cons.inj (top.symm.trans executes.top)
    exact nomatch absent.symm.trans executes.found
  | pastEnd top found ended =>
    obtain ⟨rfl, -⟩ := List.cons.inj (top.symm.trans executes.top)
    obtain rfl := Except.ok.inj (found.symm.trans executes.found)
    exact nomatch (List.getElem?_eq_none ended).symm.trans executes.fetched
  | unknown other =>
    obtain ⟨rfl, rfl, rfl, rfl⟩ := executes.unique other
    exact .fails (Stack.items_replaceTop executes.top _) rfl fun _ _ deep => nomatch deep
  | refused other reason =>
    obtain ⟨rfl, rfl, rfl, rfl⟩ := executes.unique other
    exact .fails (Stack.items_replaceTop executes.top _) rfl fun depth limit deep =>
      absurd deep (reason.ne_overflow depth limit)
  | done other fits performed =>
    obtain ⟨rfl, rfl, rfl, rfl⟩ := executes.unique other
    exact fits.move_done executes.top performed
  | broken other fits performed =>
    obtain ⟨rfl, rfl, rfl, rfl⟩ := executes.unique other
    exact fits.move_broken _ executes.top performed

theorem Executes.move (executes : Executes p s f below r i) (depth : Nat) :
    Move p s f below i ((Machine.standard depth).attempt p s).1
      ((Machine.standard depth).attempt p s).2 :=
  (attempt_outcome depth p s).move executes

end Moves

end RegisterMachine
