import RegisterMachine.Proofs.Safety

/-!
Runs of well-formed programs. Behind an instruction that is not an ender there is another one, and
an ender leaves its frame, jumps to a label or fails; so wherever a step that succeeds leaves a
frame, on the stack or at rest, an instruction is there to be fetched. It is one that has all it
needs, and what it fails of is permitted.
-/

namespace RegisterMachine

def Frame.Inside (p : Program) (f : Frame) : Prop := (p.fetch? f.routine f.pointer).isSome

/-- Every frame can go on, on the stack or from where it rests. -/
structure State.Inside (p : Program) (s : State) : Prop where
  stack : ∀ f ∈ s.calls.items, f.Inside p
  rested : s.heap.AtRest (Frame.Inside p)

section Frames

variable {p : Program} {f g : Frame} {r : Routine} {i : Instruction}

theorem Frame.inside_iff (found : p.routine f.routine = .ok r) :
    f.Inside p ↔ f.pointer < r.body.length := by
  simp [Inside, Program.fetch?, Program.routine_eq_ok_iff.mp found]

theorem Frame.Inside.congr (inside : f.Inside p) (routine : g.routine = f.routine)
    (pointer : g.pointer = f.pointer) : g.Inside p := by
  rw [Frame.Inside, routine, pointer]
  exact inside

theorem Frame.Inside.receive {opcode : String} {v : Value} (inside : f.Inside p)
    (received : f.receive p opcode v = .ok g) : g.Inside p := by
  obtain ⟨site, q, -, -, -, rfl⟩ := receive_eq_ok received
  exact inside.congr rfl rfl

theorem Program.WellFormed.routine (wf : p.WellFormed) {id : RoutineId}
    (found : p.routine id = .ok r) : r.WellFormed p :=
  wf.routines r (List.mem_of_getElem? (Program.routine_eq_ok_iff.mp found))

theorem Frame.enter_inside (wf : p.WellFormed) {id : RoutineId} {args : List Value}
    (entered : enter p id args = .ok f) : f.Inside p := by
  obtain ⟨r, found, -, rfl⟩ := enter_eq_ok_iff.mp entered
  obtain ⟨last, ends, -⟩ := (wf.routine found).ends
  rw [inside_iff found]
  exact List.length_pos_of_mem (List.mem_of_getLast? ends)

theorem Frame.advance_inside (wf : p.WellFormed) (found : p.routine f.routine = .ok r)
    (fetched : r.body[f.pointer]? = some i) (goes : i.opcode ∉ Opcodes.enders) :
    f.advance.Inside p := by
  obtain ⟨last, ends, ender⟩ := (wf.routine found).ends
  have within := (List.getElem?_eq_some_iff.mp fetched).1
  have apart : f.pointer ≠ r.body.length - 1 := by
    intro same
    rw [same, ← List.getLast?_eq_getElem?, ends] at fetched
    obtain rfl := Option.some.inj fetched
    exact goes ender
  have ahead : f.pointer + 1 < r.body.length := by omega
  exact (inside_iff (f := f.advance) found).mpr ahead

theorem Frame.jump_inside (prepared : p.Prepared) (found : p.routine f.routine = .ok r)
    {label : String} {index : Nat} (landed : Opcodes.target r label = .ok index) :
    { f with pointer := index }.Inside p :=
  (inside_iff (f := { f with pointer := index }) found).mpr
    ((prepared.target_eq_ok_iff found).mp landed).index_lt

end Frames

section Steps

variable {p : Program} {s t : State} {f : Frame} {below : List Frame} {r : Routine}
  {i : Instruction} {depth : Nat}

theorem Frame.continues_inside {g : Frame} (wf : p.WellFormed) (prepared : p.Prepared)
    (executes : Executes p s f below r i) (goes : i.opcode ∉ Opcodes.enders)
    (kept : f.Continues p i g) : g.Inside p := by
  obtain next | ⟨-, r', label, found, -, landed⟩ := kept.pointer
  · exact (advance_inside wf executes.found executes.fetched goes).congr kept.routine next
  · exact (jump_inside prepared found landed).congr kept.routine rfl

theorem Delivery.inside {opcode : String} {v : Value} {frames frames' : List Frame}
    {res : Except Failure Bool} (delivery : Delivery p opcode v frames res frames')
    (inside : ∀ f ∈ frames, f.Inside p) : ∀ f ∈ frames', f.Inside p := by
  cases delivery with
  | received received =>
    obtain ⟨top, rest⟩ := List.forall_mem_cons.mp inside
    exact List.forall_mem_cons.mpr ⟨top.receive received, rest⟩
  | nobody | declined => exact inside

theorem Opcodes.transfers_of_enders {opcode : String} (ender : opcode ∈ Opcodes.enders) :
    opcode ∈ Opcodes.transfers ∨ opcode = "jump-to" ∨ opcode = "co-crash" := by
  simp only [enders, List.mem_cons, List.not_mem_nil, or_false] at ender
  obtain rfl | rfl | rfl | rfl | same := ender
  iterate 4 exact .inl (by decide)
  exact .inr same

theorem Plan.jump_eq_ok {h : Heap} {d : Deed} (decided : Plan.jump p i f h = .ok d) :
    ∃ r label index, p.routine f.routine = .ok r ∧ Opcodes.target r label = .ok index ∧
      d = .change (.jump index) := by
  obtain ⟨label, -, decided⟩ := bind_eq_ok_iff.mp decided
  obtain ⟨r, found, decided⟩ := bind_eq_ok_iff.mp decided
  obtain ⟨index, landed, same⟩ := bind_eq_ok_iff.mp decided
  exact ⟨r, label, index, found, landed, (Except.ok.inj same).symm⟩

theorem Executes.jumps (prepared : p.Prepared) (executes : Executes p s f below r i)
    (opcode : i.opcode = "jump-to" ∨ i.opcode = "co-crash")
    (ran : ((Machine.standard depth).attempt p s) = (.ok true, t)) :
    ∀ g ∈ t.calls.items.head?, g.Inside p := by
  have passed : (s.advance f).calls.items = f.advance :: below :=
    Stack.items_replaceTop executes.top _
  obtain jumps | crashes := opcode
  · have known : (Machine.standard depth).handler? i.opcode = some Opcodes.jump := jumps ▸ rfl
    rw [executes.attempt_eq known follows_jump] at ran
    cases decided : Plan.jump p i f.advance s.heap with
    | error e => simp [decided] at ran
    | ok d =>
      obtain ⟨r', label, index, found, landed, rfl⟩ := Plan.jump_eq_ok decided
      simp only [decided, Deed.perform, Prod.mk.injEq, true_and] at ran
      subst ran
      simp only [Stack.items_replaceTop passed, List.head?_cons, Option.mem_some_iff, forall_eq']
      exact Frame.jump_inside prepared found landed
  · have known : (Machine.standard depth).handler? i.opcode = some Opcodes.crash := crashes ▸ rfl
    rw [executes.attempt_eq known follows_crash] at ran
    cases ran

theorem Move.inside (wf : p.WellFormed) (prepared : p.Prepared)
    (executes : Executes p s f below r i) (inside : s.Inside p)
    (jumps : i.opcode = "jump-to" ∨ i.opcode = "co-crash" → ∀ g ∈ t.calls.items.head?, g.Inside p)
    (move : Move p s f below i (.ok true) t) : t.Inside p := by
  obtain ⟨-, rest⟩ := List.forall_mem_cons.mp (executes.top ▸ inside.stack)
  have goes {opcode : String} (same : i.opcode = opcode) (other : opcode ∉ Opcodes.enders) :
      i.opcode ∉ Opcodes.enders := same ▸ other
  have advanced := Frame.advance_inside wf executes.found executes.fetched
  constructor
  · cases move with
    | @proceeds _ g quiet kept frames _ =>
      have top : g.Inside p := by
        by_cases ender : i.opcode ∈ Opcodes.enders
        · exact jumps ((Opcodes.transfers_of_enders ender).resolve_left quiet) g (by simp [frames])
        · exact Frame.continues_inside wf prepared executes ender kept
      exact frames ▸ List.forall_mem_cons.mpr ⟨top, rest⟩
    | creates opcode _ _ _ kept frames _ =>
      have top := Frame.continues_inside wf prepared executes (goes opcode (by decide)) kept
      exact frames ▸ List.forall_mem_cons.mpr ⟨top, rest⟩
    | enters called _ _ entered frames _ =>
      have caller : f.advance.Inside p := advanced (by
        obtain same | same := called.opcode_mem <;> exact goes same (by decide))
      have frames' := List.forall_mem_cons.mpr ⟨caller, rest⟩
      exact frames ▸ List.forall_mem_cons.mpr ⟨Frame.enter_inside wf entered, frames'⟩
    | resumes opcode _ rested frames _ =>
      have caller := advanced (goes opcode (by decide))
      have resumed := (inside.rested _ _ rested).congr rfl rfl
      have frames' := List.forall_mem_cons.mpr ⟨caller, rest⟩
      exact frames ▸ List.forall_mem_cons.mpr ⟨resumed, frames'⟩
    | leaves _ frames _ => exact frames ▸ rest
    | hands _ _ delivery _ | rests _ _ delivery _ => exact delivery.inside rest
  · refine inside.rested.move move (fun _ _ => Frame.enter_inside wf) fun opcode => ?_
    exact (advanced (goes opcode (by decide))).congr rfl rfl

theorem State.Inside.attempt (wf : p.WellFormed) (prepared : p.Prepared) (inside : s.Inside p)
    (ran : (Machine.standard depth).attempt p s = (.ok true, t)) : t.Inside p := by
  have outcome := attempt_outcome depth p s
  rw [ran] at outcome
  obtain ⟨f, below, r, i, executes⟩ | ⟨-, stuck⟩ := outcome.executes_or_stays
  · exact (outcome.move executes).inside wf prepared executes inside
      fun opcode => executes.jumps prepared opcode ran
  · exact absurd rfl stuck

end Steps

section Failures

variable {p : Program} {s : State} {f : Frame} {below : List Frame} {r : Routine}
  {i : Instruction} {depth : Nat}

theorem Executes.equipped {signature : Signature} (wf : p.WellFormed)
    (numbered : ∀ q ∈ p.registers, q < UInt64.size - 1) (prepared : p.Prepared)
    (executes : Executes p s f below r i) (active : f.Activates p r) (suits : i.Suits signature) :
    Equipped p signature i f.advance r where
  suits := suits
  inside _ mentioned := Frame.register_lt numbered executes.found active.size
    (List.mem_of_getElem? executes.fetched) mentioned
  found := executes.found
  labelled := prepared.labelled executes.found
  linked := (wf.routine executes.found).linked i (List.mem_of_getElem? executes.fetched)

theorem Executes.permitted {e : Failure} (wf : p.WellFormed)
    (numbered : ∀ q ∈ p.registers, q < UInt64.size - 1) (prepared : p.Prepared)
    (executes : Executes p s f below r i) (stack : p.Stacks (f :: below))
    (failed : ((Machine.standard depth).attempt p s).1 = .error e) : e.Permitted := by
  obtain ⟨r', active⟩ := stack.active f List.mem_cons_self
  obtain rfl := Except.ok.inj (executes.found.symm.trans active.found)
  obtain ⟨signature, signed, suits⟩ :=
    (wf.routine executes.found).suits i (List.mem_of_getElem? executes.fetched)
  have equipped := executes.equipped wf numbered prepared active suits
  obtain ⟨handler, known, plan, follows, safe⟩ := handler?_guarded signed depth
  rw [executes.attempt_eq known follows] at failed
  cases decided : plan p i f.advance s.heap with
  | error refusal =>
    simp only [decided, Except.error.injEq] at failed
    subst failed
    exact safe p r i f.advance s.heap rfl equipped refusal decided
  | ok d =>
    simp only [decided] at failed
    cases performed : d.perform p i f.advance (s.advance f) with
    | ok u t => simp [performed] at failed
    | error fault t =>
      simp only [performed, Except.error.injEq] at failed
      subst failed
      obtain ⟨_, _, rfl⟩ | ⟨_, rfl⟩ | ⟨_, _, rfl⟩ :=
        Deed.perform_error numbered executes.top stack performed <;> trivial

theorem State.Inside.permitted {e : Failure} (wf : p.WellFormed)
    (numbered : ∀ q ∈ p.registers, q < UInt64.size - 1) (prepared : p.Prepared)
    (inside : s.Inside p) (sound : s.Sound p depth)
    (failed : ((Machine.standard depth).attempt p s).1 = .error e) : e.Permitted := by
  cases top : s.calls.items with
  | nil => simp [Machine.attempt, Machine.step, Stack.top?, top] at failed
  | cons f below =>
    have stack : p.Stacks (f :: below) := top ▸ sound.stack
    obtain ⟨r, active⟩ := stack.active f List.mem_cons_self
    have within := (Frame.inside_iff active.found).mp
      (inside.stack f (top ▸ List.mem_cons_self))
    have executes : Executes p s f below r r.body[f.pointer] :=
      ⟨top, active.found, List.getElem?_eq_getElem within⟩
    exact executes.permitted wf numbered prepared stack failed

end Failures

section Runs

variable {p : Program} {s : State} {depth : Nat} {sink : Sink} {e : Failure}

end Runs

end RegisterMachine
