import RegisterMachine.Proofs.Relocation
import RegisterMachine.Proofs.SideBySide

/-!
Functions are met by name. The positions in the frames come from look-ups of names and lead to
nothing but functions of these names, so a program with the same functions in other places, and with
others among them, runs in the same way: each state of the one run is a state of the other with the
positions changed. Only a name that the larger program alone has can tell the two apart, and the run
of the smaller one fails where it meets such a name.
-/

namespace RegisterMachine

section Steps

variable {p q : Program} {s : State} {f : Frame} {below : List Frame} {i : Instruction}
  {depth : Nat}

theorem push_relocate (g : RoutineId → RoutineId) (s : State) (f : Frame) :
    Effect.push (f.relocate g) (s.relocate g) =
      Machine.transport (·.relocate g) (Effect.push f s) := by
  rw [Effect.push_run, Effect.push_run]
  simp only [State.relocate, Stack.push_relocate]
  cases s.calls.push f <;> rfl

theorem deliver_relocate (within : p.Within q)
    (known : ∀ f ∈ s.calls.items, ∃ r, p.routine f.routine = .ok r) (opcode : String) (v : Value) :
    Effect.deliver q opcode v (s.relocate (p.relocation q)) =
      Machine.transport (·.relocate (p.relocation q)) (Effect.deliver p opcode v s) := by
  rw [Effect.deliver_run, Effect.deliver_run]
  have items : (s.relocate (p.relocation q)).calls.items =
      s.calls.items.map (·.relocate (p.relocation q)) := rfl
  rw [items]
  cases top : s.calls.items with
  | nil => rfl
  | cons f rest =>
    obtain ⟨r, found⟩ := known f (top ▸ List.mem_cons_self)
    simp only [List.map_cons, within.receive found]
    cases f.receive p opcode v with
    | error e => rfl
    | ok f' =>
      simp only [Except.map, State.relocate, Stack.replaceTop_relocate]
      rfl

theorem Deed.perform_relocate (within : p.Within q) (top : s.calls.items = f :: below)
    (known : ∀ f ∈ below, ∃ r, p.routine f.routine = .ok r) (d : Deed) :
    (d.relocate (p.relocation q)).perform q i (f.relocate (p.relocation q))
        (s.relocate (p.relocation q)) =
      Machine.transport (·.relocate (p.relocation q)) (d.perform p i f s) := by
  have popped : (s.relocate (p.relocation q)).calls.pop =
      s.calls.pop.relocate (p.relocation q) := s.calls.pop_relocate _
  have left : ∀ f ∈ s.calls.pop.items, ∃ r, p.routine f.routine = .ok r :=
    (Stack.items_pop top).symm ▸ known
  cases d with
  | change c =>
    simp only [relocate, perform, State.relocate, Change.frame_relocate, Change.heap_relocate,
      Stack.replaceTop_relocate]
    rfl
  | print v =>
    have text : (s.relocate (p.relocation q)).heap.render v = s.heap.render v :=
      s.heap.renderWithin_relocate _ _ _ v
    simp only [relocate, perform, text, Effect.print_run, apply_ite (Machine.transport _)]
    rfl
  | enter callee => exact push_relocate _ s callee
  | resume id parked =>
    have emptied := s.heap.park_relocate (p.relocation q) id none
    have resumed := push_relocate (p.relocation q) { s with heap := s.heap.park id none }
      { parked with home := some id }
    rw [State.relocate, ← emptied] at resumed
    exact resumed
  | leave =>
    simp only [relocate, perform, popped]
    rfl
  | handBack v =>
    have delivered := deliver_relocate (s := { s with calls := s.calls.pop }) within left i.opcode v
    simp only [relocate, perform, popped]
    exact delivered
  | yield v =>
    have rested := s.heap.rest_relocate (p.relocation q) f
    have delivered := deliver_relocate
      (s := { s with calls := s.calls.pop, heap := s.heap.rest f }) within left i.opcode v
    rw [State.relocate, ← rested] at delivered
    simp only [relocate, perform, popped]
    exact delivered

/-- The step from `s` fails for want of a function that only `q` has. -/
def Machine.Lacks (m : Machine) (p q : Program) (s : State) : Prop :=
  ∃ name l, (m.attempt p s).1 = .error ⟨.unknownRoutine name, l⟩ ∧ ¬p.Has name ∧ q.Has name

/-- The image of a state steps to the image of the state after it, unless for want of a function. -/
theorem Machine.attempt_relocate (within : p.Within q)
    (known : ∀ f ∈ s.calls.items, ∃ r, p.routine f.routine = .ok r)
    (complete : ¬(standard depth).Lacks p q s) :
    (standard depth).attempt q (s.relocate (p.relocation q)) =
      Prod.map id (·.relocate (p.relocation q)) ((standard depth).attempt p s) := by
  let g := p.relocation q
  have items : (s.relocate g).calls.items = s.calls.items.map (·.relocate g) := rfl
  cases top : s.calls.items with
  | nil =>
    have empty : (s.relocate g).calls.items = [] := by rw [items, top, List.map_nil]
    simp only [g] at empty
    simp only [attempt, step, Stack.top?, top, empty, List.head?_nil]
    rfl
  | cons f below =>
    have known := top ▸ known
    obtain ⟨r, found⟩ := known f List.mem_cons_self
    obtain ⟨-, r', present, same⟩ := within.routine found
    have present : q.routine (f.relocate g).routine = .ok r' := present
    have top' : (s.relocate g).calls.items = f.relocate g :: below.map (·.relocate g) := by
      rw [items, top, List.map_cons]
    unfold Lacks at complete
    rw [attempt_top _ top] at complete ⊢
    rw [attempt_top _ top', present, found]
    simp only [found, same.name, same.body] at complete ⊢
    have pointer : (f.relocate g).pointer = f.pointer := rfl
    rw [pointer]
    cases fetched : r.body[f.pointer]? with
    | none => rfl
    | some i =>
      have advanced : (s.relocate g).advance (f.relocate g) = (s.advance f).relocate g :=
        congrArg (fun calls => { s.relocate g with calls })
          (s.calls.replaceTop_relocate g f.advance)
      have passed : (s.advance f).calls.items = f.advance :: below :=
        Stack.items_replaceTop top f.advance
      have passed' : ((s.advance f).relocate g).calls.items =
          f.advance.relocate g :: below.map (·.relocate g) := by
        rw [← advanced]
        exact Stack.items_replaceTop top' (f.relocate g).advance
      simp only [fetched] at complete ⊢
      rw [advanced]
      cases handled : (standard depth).handler? i.opcode with
      | none => rfl
      | some handler =>
        obtain ⟨plan, follows, portable⟩ := handler?_portable handled
        have relocated := portable p q i f.advance (s.advance f).heap within ⟨r, found⟩
        simp only [handled] at complete ⊢
        rw [follows p i _ _ _ passed] at complete ⊢
        rw [follows q i _ _ _ passed']
        -- only the plans look at the programs, so it is their decisions that are compared
        change Relocated p q _ (plan q i _ ((s.advance f).relocate g).heap) at relocated
        generalize plan p i f.advance (s.advance f).heap = x at relocated complete ⊢
        generalize plan q i _ ((s.advance f).relocate g).heap = x' at relocated ⊢
        cases relocated with
        | refuses e => rfl
        | does d =>
          simp only
          rw [d.perform_relocate within passed fun f member =>
            known f (List.mem_cons_of_mem _ member),
            finish_transport fun _ => rfl]
        | lacks absent present => exact absurd ⟨_, _, rfl, absent, present⟩ complete

theorem Machine.not_lacks (has : ∀ name, q.Has name → p.Has name) (m : Machine) (s : State) :
    ¬m.Lacks p q s :=
  fun ⟨name, _, _, absent, present⟩ => absent (has name present)

theorem Machine.start_relocate (within : p.Within q) (m : Machine) (sink : Sink)
    (complete : q.Has Program.entry → p.Has Program.entry) :
    m.start q sink = (m.start p sink).map (·.relocate (p.relocation q)) := by
  unfold start
  cases found : p.find Program.entry with
  | error e =>
    have absent : ¬p.Has Program.entry := fun ⟨id, also⟩ => nomatch found.symm.trans also
    rw [Program.find_eq_error fun present => absent (complete present), ← found,
      Program.find_eq_error absent]
    rfl
  | ok id =>
    obtain ⟨r, present, -⟩ := find_eq_ok found
    simp only [within.find found, within.enter present, ok_bind]
    cases Frame.enter p id [] with
    | error e => rfl
    | ok f =>
      simp only [Except.map, ok_bind]
      cases m.maxDepth with
      | zero => rfl
      | succ room =>
        have nothing : ({} : Heap).relocate (p.relocation q) = {} := by simp [Heap.relocate]
        simp only [Stack.empty, Stack.push, ok_bind, pure, Except.pure, State.relocate, nothing]
        rfl

end Steps

section Runs

variable {p q : Program} {s : State} {sink : Sink} {depth n steps : Nat}

theorem Machine.Reachable.routines (prepared : p.Prepared)
    (reached : (standard depth).Reachable p s) :
    ∀ f ∈ s.calls.items, ∃ r, p.routine f.routine = .ok r := by
  intro f member
  obtain ⟨r, active⟩ := (reached.sound prepared).stack.active f member
  exact ⟨r, active.found⟩

theorem Machine.after_relocate (within : p.Within q) (prepared : p.Prepared)
    (reached : (standard depth).Reachable p s)
    (complete : ∀ k < n, ¬(standard depth).Lacks p q ((standard depth).after p s k)) {k : Nat}
    (le : k ≤ n) : (standard depth).after q (s.relocate (p.relocation q)) k =
      ((standard depth).after p s k).relocate (p.relocation q) :=
  after_map (φ := (·.relocate (p.relocation q)))
    (fun k small => attempt_relocate within ((reached.after k).routines prepared)
      (complete k small)) le

theorem Machine.execute_relocate (within : p.Within q) (prepared : p.Prepared) (sink : Sink)
    (steps : Nat) (begins : q.Has Program.entry → p.Has Program.entry)
    (complete : ∀ s k, (standard depth).start p sink = .ok s → k < steps →
      ((standard depth).runFor p k s).1 = .unfinished →
        ¬(standard depth).Lacks p q ((standard depth).after p s k)) :
    (standard depth).execute q sink steps = (standard depth).execute p sink steps := by
  refine execute_map (ψ := id) (start_relocate within _ sink begins) (fun s started => ?_)
    (fun _ => rfl) fun _ => rfl
  refine runFor_map (φ := (·.relocate (p.relocation q))) fun k small going => ?_
  have reached := (Reachable.start started).after k
  exact attempt_relocate within (reached.routines prepared) (complete s k started small going)

/-- A prepared program that has the functions of another, and perhaps more, runs as the other does,
up to the positions of the functions, until the other fails for want of one. With the same functions
in another order it runs the same altogether. -/
theorem Machine.positions_unseen (prepared : p.Prepared) (prepared' : q.Prepared)
    (distinct : (q.routines.map Routine.name).Nodup)
    (includes : ∀ r ∈ p.routines, ∃ r' ∈ q.routines, r'.name = r.name ∧ r'.body = r.body)
    (depth : Nat) (sink : Sink) :
    let m := standard depth
    let g := p.relocation q
    (∀ id r, p.routine id = .ok r →
      ∃ r', q.routine (g id) = .ok r' ∧ r'.name = r.name ∧ r'.body = r.body) ∧
    ((q.Has Program.entry → p.Has Program.entry) →
      m.start q sink = (m.start p sink).map (·.relocate g)) ∧
    (∀ s n, m.start p sink = .ok s → (∀ k < n, ¬m.Lacks p q (m.after p s k)) →
      m.after q (s.relocate g) n = (m.after p s n).relocate g ∧
      ∀ k < n, (m.attempt q (m.after q (s.relocate g) k)).1 = (m.attempt p (m.after p s k)).1) ∧
    (∀ steps, (∀ name l, (m.execute p sink steps).1 = .failed ⟨.unknownRoutine name, l⟩ →
      ¬q.Has name) → m.execute q sink steps = m.execute p sink steps) ∧
    ((∀ r' ∈ q.routines, ∃ r ∈ p.routines, r.name = r'.name) →
      m.start q sink = (m.start p sink).map (·.relocate g) ∧
      (∀ s n, m.start p sink = .ok s →
        m.after q (s.relocate g) n = (m.after p s n).relocate g ∧
        (m.attempt q (m.after q (s.relocate g) n)).1 = (m.attempt p (m.after p s n)).1) ∧
      ∀ steps, m.execute q sink steps = m.execute p sink steps) := by
  intro m g
  have within : p.Within q := prepared.within prepared' distinct includes
  have lockstep (s : State) (n : Nat) (started : m.start p sink = .ok s)
      (complete : ∀ k < n, ¬m.Lacks p q (m.after p s k)) {k : Nat} (le : k ≤ n) :
      m.after q (s.relocate g) k = (m.after p s k).relocate g :=
    after_relocate within prepared (.start started) complete le
  have results (s : State) (k : Nat) (started : m.start p sink = .ok s)
      (complete : ¬m.Lacks p q (m.after p s k)) :
      (m.attempt q ((m.after p s k).relocate g)).1 = (m.attempt p (m.after p s k)).1 := by
    have reached := (Reachable.start started).after k
    rw [attempt_relocate within (reached.routines prepared) complete]
    rfl
  refine ⟨fun id r found => ?_, start_relocate within m sink, fun s n started complete => ?_,
    fun steps complete => ?_, fun all => ?_⟩
  · obtain ⟨-, r', present, same⟩ := within.routine found
    exact ⟨r', present, same.name, same.body⟩
  · refine ⟨lockstep s n started complete (Nat.le_refl n), fun k small => ?_⟩
    rw [lockstep s n started complete (Nat.le_of_lt small)]
    exact results s k started (complete k small)
  -- a step that lacks a function ends the run with that fault, so the end tells of it
  · refine execute_relocate within prepared sink steps (fun present => ?_) ?_
    · refine Classical.byContradiction fun absent => complete Program.entry none ?_ present
      simp only [execute, start, Program.find_eq_error absent, error_bind]
    · intro s k started small going lacks
      obtain ⟨name, l, failed, -, present⟩ := lacks
      exact complete name l (execute_failed started going failed small) present
  · have has : ∀ name, q.Has name → p.Has name := by
      intro name present
      obtain ⟨r', member, rfl⟩ := Program.has_iff.mp present
      exact Program.has_iff.mpr (all r' member)
    refine ⟨start_relocate within m sink (has _), fun s n started => ?_, fun steps => ?_⟩
    · have same := lockstep s n started (fun k _ => not_lacks has m _) (Nat.le_refl n)
      rw [same]
      exact ⟨rfl, results s n started (not_lacks has m _)⟩
    · exact execute_relocate within prepared sink steps (has _) fun _ _ _ _ _ => not_lacks has m _

end Runs

def Program.regrouped : Program where
  routines := yielding.routines.reverse ++
    [{ name := "spare", body := [], notes := ⟨[(Opcodes.labelKey, .labels [])]⟩ }]

theorem Machine.yielding_regrouped :
    let g := Program.yielding.relocation .regrouped
    let run := (standard 2).after .yielding .yielding
    let other := (standard 2).after .regrouped (State.yielding.relocate g)
    Program.yielding.Prepared ∧ Program.regrouped.Prepared ∧ g 0 = 1 ∧ g 1 = 0 ∧
      (standard 2).start .regrouped {} = .ok (State.yielding.relocate g) ∧
      (run 3).calls.items.map Frame.routine = [1, 0] ∧ other 3 = (run 3).relocate g ∧
      (other 3).calls.items.map Frame.routine = [0, 1] ∧
      (standard 2).execute .regrouped {} 9 = (standard 2).execute .yielding {} 9 ∧
      ((standard 2).execute .regrouped {} 9).1 = .halted := by
  intro g run other
  have prepared : Program.regrouped.Prepared :=
    ⟨2, ⟨⟨Program.regrouped.routines.map fun r => { r with notes := {} }, {}⟩, []⟩,
      ⟨.regrouped, []⟩, rfl, rfl⟩
  obtain ⟨-, starts, runs, ends, -⟩ := positions_unseen Program.yielding_prepared prepared
    (by decide) (by decide +kernel) 2 {}
  have started : (standard 2).start .yielding {} = .ok .yielding := rfl
  have complete : ∀ k < 3, ¬(standard 2).Lacks .yielding .regrouped (run k) := by
    rintro k small ⟨name, l, failed, -⟩
    match k with
    | 0 | 1 | 2 => cases failed
  have halts : ((standard 2).execute .yielding {} 9).1 = .halted := by decide +kernel
  have same := ends 9 fun name l failed => nomatch halts.symm.trans failed
  exact ⟨Program.yielding_prepared, prepared, rfl, rfl, starts fun _ => ⟨0, rfl⟩, rfl,
    (runs .yielding 3 started complete).1, by decide +kernel, same, same ▸ halts⟩

end RegisterMachine
