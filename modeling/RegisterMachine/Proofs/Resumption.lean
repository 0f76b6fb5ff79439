import RegisterMachine.Proofs.Coroutines

/-!
What a coroutine resumes with. A frame at rest is out of reach of every step but the one that takes
it out, and each frame has one owner only; so however long a coroutine rests, and whatever runs in
the meantime, it goes on with the frame that was put there when it was created or when it yielded.
-/

namespace RegisterMachine

/-- The step from `s` takes the frame out of the coroutine, to put it on the stack or, where that
is full, to lose it. -/
def Machine.Takes (m : Machine) (p : Program) (s : State) (id : CoroutineId) : Prop :=
  m.Gives p s id .resumed ∨ m.Gives p s id .lost

def Machine.PutsOnTop (m : Machine) (p : Program) (s : State) (g : Frame) : Prop :=
  ∃ f below, s.calls.items = f :: below ∧ (m.attempt p s).2.calls.items = g :: f.advance :: below

section Steps

variable {p : Program} {depth n : Nat} {s t : State} {f g : Frame} {below : List Frame}
  {r : Routine} {i : Instruction} {res : Except Failure Bool} {id : CoroutineId}

theorem Handover.rests_on (handover : Handover s f i res t) (owned : s.Owned)
    (rested : (s.heap.coroutine id).parked = some g)
    (unresumed : ¬Turn.resumed.Due s f i res t id) :
    (t.heap.coroutine id).parked = some g ∨ Turn.lost.Due s f i res t id ∧ t.owners id = 0 := by
  have away : s.homes.count (some id) = 0 := List.count_eq_zero.mpr (owned.not_running rested)
  cases handover with
  | stays _ handles => exact .inl (by rw [Heap.coroutine_congr handles, rested])
  | creates _ _ handles =>
    have other : id ≠ s.heap.nextCoroutine := Nat.ne_of_lt (Heap.parked_lt rested)
    exact .inl (by rw [Heap.coroutine_push handles, if_neg other, rested])
  | @resumes taken parked _ _ handles due =>
    have other : id ≠ taken := fun same => unresumed ((due id .resumed).mpr ⟨rfl, same⟩)
    exact .inl (by rw [handles, Heap.parked_none, if_neg other, rested])
  | @loses taken parked _ homes handles due =>
    by_cases same : id = taken
    · refine .inr ⟨(due id .lost).mpr ⟨rfl, same⟩, ?_⟩
      simp [State.owners, handles, homes, Heap.parked_none, same, same ▸ away]
    · exact .inl (by rw [handles, Heap.parked_none, if_neg same, rested])
  | leaves _ handles => exact .inl (by rw [handles, rested])
  | rests homes handles =>
    have other : f.home ≠ some id := by
      intro home
      exact owned.not_running rested (homes ▸ home ▸ List.mem_cons_self)
    exact .inl (by rw [handles, Heap.parked_rest, if_neg fun both => other both.1, rested])

theorem Machine.Reachable.rests_on (reached : (standard depth).Reachable p s)
    (rested : (s.heap.coroutine id).parked = some g)
    (unresumed : ¬(standard depth).Gives p s id .resumed) :
    (((standard depth).attempt p s).2.heap.coroutine id).parked = some g ∨
      (standard depth).Gives p s id .lost ∧ ((standard depth).attempt p s).2.owners id = 0 := by
  have outcome := attempt_outcome depth p s
  obtain ⟨f, below, r, i, executes⟩ | ⟨stays, -⟩ := outcome.executes_or_stays
  · have handover := (outcome.move executes).handover executes.top
    obtain kept | ⟨due, gone⟩ := handover.rests_on reached.owned rested
      fun due => unresumed ⟨f, below, r, i, executes, due⟩
    · exact .inl kept
    · exact .inr ⟨⟨f, below, r, i, executes, due⟩, gone⟩
  · rw [stays]
    exact .inl rested

theorem Machine.after_created (depth : Nat) (p : Program) (given : id < s.heap.nextCoroutine)
    (n : Nat) : id < ((standard depth).after p s n).heap.nextCoroutine := by
  induction n with
  | zero => exact given
  | succ n ih => exact (attempt_owners_le depth p ih).1

theorem Machine.Reachable.rests_after (reached : (standard depth).Reachable p s)
    (rested : (s.heap.coroutine id).parked = some g)
    (unresumed : ∀ k < n, ¬(standard depth).Gives p ((standard depth).after p s k) id .resumed) :
    (((standard depth).after p s n).heap.coroutine id).parked = some g ∨
      (∃ k < n, (standard depth).Gives p ((standard depth).after p s k) id .lost) ∧
        ((standard depth).after p s n).owners id = 0 := by
  induction n with
  | zero => exact .inl rested
  | succ n ih =>
    obtain kept | ⟨⟨k, earlier, lost⟩, gone⟩ := ih fun k small => unresumed k (by omega)
    · obtain kept | ⟨lost, gone⟩ := (reached.after n).rests_on kept (unresumed n (by omega))
      · exact .inl kept
      · exact .inr ⟨⟨n, by omega, lost⟩, gone⟩
    · have created := after_created depth p (Heap.parked_lt rested) n
      exact .inr ⟨⟨k, by omega, lost⟩, Nat.le_zero.mp (gone ▸
        (attempt_owners_le depth p created).2)⟩

theorem Move.rested (move : Move p s f below i res t) (opcode : i.opcode = "co-yield")
    (rested : (t.heap.coroutine id).parked = some g)
    (put : (s.heap.coroutine id).parked ≠ some g) :
    f.home = some id ∧ g = { f.advance with home := none } := by
  have unlike {other : String} (same : i.opcode = other) (apart : other ≠ "co-yield") : False :=
    apart (same.symm.trans opcode)
  cases move with
  | proceeds _ _ _ handles | fails _ handles _ | enters _ _ _ _ _ handles =>
    exact absurd (Heap.coroutine_congr handles id ▸ rested) put
  | leaves _ _ handles | hands _ _ _ handles => exact absurd (handles ▸ rested) put
  | creates other | resumes other | loses other => exact (unlike other (by decide)).elim
  | rests _ _ _ handles =>
    rw [handles, Heap.parked_rest] at rested
    split at rested
    · next from_here => exact ⟨from_here.1, (Option.some.inj rested).symm⟩
    · exact absurd rested put

theorem Move.resumed (move : Move p s f below i (.ok true) t) (opcode : i.opcode = "co-invoke")
    (named : f.operand i 0 = .ok (.coroutine id)) :
    ∃ parked, (s.heap.coroutine id).parked = some parked ∧
      t.calls.items = { parked with home := some id } :: f.advance :: below := by
  have unlike {others : List String} (member : i.opcode ∈ others)
      (apart : "co-invoke" ∉ others) : False := apart (opcode ▸ member)
  cases move with
  | proceeds quiet => exact absurd (opcode ▸ by decide) quiet
  | creates other | rests other =>
    exact (unlike (List.mem_singleton.mpr other) (by decide)).elim
  | leaves other | hands other => exact (unlike other (by decide)).elim
  | enters called =>
    obtain same | same := called.opcode_mem <;>
      exact (unlike (List.mem_singleton.mpr same) (by decide)).elim
  | @resumes _ taken parked _ given rested frames =>
    obtain rfl : id = taken := by simpa using named.symm.trans given
    exact ⟨parked, rested, frames⟩

theorem Machine.Gives.putsOnTop (given : (standard depth).Gives p s id .resumed) :
    ∃ parked, (s.heap.coroutine id).parked = some parked ∧
      (standard depth).PutsOnTop p s { parked with home := some id } := by
  obtain ⟨f, below, r, i, executes, opcode, named, success⟩ := given
  have move := executes.move depth
  rw [success] at move
  obtain ⟨parked, rested, frames⟩ := move.resumed opcode named
  exact ⟨parked, rested, f, below, executes.top, frames⟩

theorem Plan.createCoroutine_eq_ok {h : Heap} {d : Deed}
    (decided : Plan.createCoroutine p i f h = .ok d) :
    ∃ name rid parked q, i.name = .ok name ∧ p.find name = .ok rid ∧
      Frame.enter p rid [] = .ok parked ∧ d = .change (.coroutine q name parked) := by
  unfold Plan.createCoroutine at decided
  obtain ⟨name, named, decided⟩ := bind_eq_ok_iff.mp decided
  obtain ⟨rid, found, decided⟩ := bind_eq_ok_iff.mp decided
  obtain ⟨parked, entered, decided⟩ := bind_eq_ok_iff.mp decided
  obtain ⟨q, -, decided⟩ := bind_eq_ok_iff.mp decided
  exact ⟨name, rid, parked, q, named, found, entered, (Except.ok.inj decided).symm⟩

theorem Executes.created (executes : Executes p s f below r i) (opcode : i.opcode = "co-create")
    (success : ((Machine.standard depth).attempt p s).1 = .ok true) :
    ∃ name rid parked, i.name = .ok name ∧ p.find name = .ok rid ∧
      Frame.enter p rid [] = .ok parked ∧
      (((Machine.standard depth).attempt p s).2.heap.coroutine s.heap.nextCoroutine).parked =
        some parked := by
  have known : (Machine.standard depth).handler? i.opcode = some Opcodes.createCoroutine :=
    opcode ▸ rfl
  rw [executes.attempt_eq known follows_createCoroutine] at success ⊢
  cases decided : Plan.createCoroutine p i f.advance s.heap with
  | error e => simp [decided] at success
  | ok d =>
    obtain ⟨name, rid, parked, q, named, found, entered, rfl⟩ := Plan.createCoroutine_eq_ok decided
    refine ⟨name, rid, parked, named, found, entered, ?_⟩
    simp [Deed.perform, Change.heap, State.advance, Heap.addCoroutine, Heap.coroutine,
      Heap.nextCoroutine]

/-- A yield puts its own frame to rest, which nothing changes until it is taken out; a resumption
goes on with that frame behind the yield, and the first one with a fresh frame of the function that
the coroutine was created for. -/
theorem Machine.Reachable.resumption (reached : (standard depth).Reachable p s)
    (executes : Executes p s f below r i) :
    let t := ((standard depth).attempt p s).2
    let later := (standard depth).after p t
    (i.opcode = "co-yield" → ∀ id g, (t.heap.coroutine id).parked = some g →
      (s.heap.coroutine id).parked ≠ some g →
      ∀ n, (∀ k < n, ¬(standard depth).Takes p (later k) id) →
        ((later n).heap.coroutine id).parked = some g ∧
        ((standard depth).Gives p (later n) id .resumed →
          (standard depth).PutsOnTop p (later n)
            { f with pointer := f.pointer + 1, home := some id })) ∧
    (i.opcode = "co-create" → ((standard depth).attempt p s).1 = .ok true →
      ∀ n, (∀ k < n, ¬(standard depth).Gives p (later k) s.heap.nextCoroutine .resumed) →
        (standard depth).Gives p (later n) s.heap.nextCoroutine .resumed →
        ∃ name rid callee, i.name = .ok name ∧ p.find name = .ok rid ∧
          p.routine rid = .ok callee ∧ (standard depth).PutsOnTop p (later n) {
            routine := rid
            name := callee.name
            registers := Array.replicate callee.registerCount .unset
            home := some s.heap.nextCoroutine }) := by
  intro t later
  refine ⟨fun opcode id g rested put n untaken => ?_, fun opcode success n unresumed given => ?_⟩
  · obtain ⟨-, rfl⟩ := (executes.move depth).rested opcode rested put
    have unresumed : ∀ k < n, ¬(standard depth).Gives p (later k) id .resumed :=
      fun k small resumed => untaken k small (.inl resumed)
    obtain kept | ⟨⟨k, small, lost⟩, -⟩ := reached.step.rests_after rested unresumed
    · refine ⟨kept, fun given => ?_⟩
      obtain ⟨parked, found, pushes⟩ := given.putsOnTop
      obtain rfl := Option.some.inj (kept.symm.trans found)
      exact pushes
    · exact absurd (.inr lost) (untaken k small)
  · obtain ⟨name, rid, fresh, named, found, entered, rested⟩ := executes.created opcode success
    obtain ⟨callee, present, -, rfl⟩ := Frame.enter_eq_ok_iff.mp entered
    obtain ⟨parked, held, pushes⟩ := given.putsOnTop
    -- a coroutine that had lost its frame before would have none to resume with
    obtain kept | ⟨-, gone⟩ := reached.step.rests_after rested unresumed
    · obtain rfl := Option.some.inj (kept.symm.trans held)
      refine ⟨name, rid, callee, named, found, present, ?_⟩
      simpa using pushes
    · have owned : 0 < (later n).owners s.heap.nextCoroutine := by
        rw [State.owners, held]
        exact Nat.add_pos_left Nat.one_pos _
      exact absurd gone (Nat.ne_of_gt owned)

end Steps

theorem State.yielding_resumes :
    let m := Machine.standard 2
    let s := m.after .yielding yielding
    (m.Gives .yielding (s 1) 0 .resumed ∧ m.PutsOnTop .yielding (s 1)
        { routine := 1, name := "seven", registers := #[.unset], home := some 0 }) ∧
      m.Gives .yielding (s 4) 0 .resumed ∧ m.PutsOnTop .yielding (s 4)
        { routine := 1, name := "seven", registers := #[.int 7], pointer := 2, home := some 0 } := by
  intro m s
  have creates : Executes .yielding (s 0) (s 0).calls.items[0] [] Program.yielding.routines[0]
      Program.yielding.routines[0].body[0] := ⟨rfl, rfl, rfl⟩
  have first : m.Gives .yielding (s 1) 0 .resumed :=
    ⟨_, _, _, _, ⟨rfl, rfl, rfl⟩, rfl, rfl, rfl⟩
  have yielded : s 4 = {
      calls := {
        items := [{
          routine := 0, name := "main", registers := #[.coroutine 0, .int 7, .unset],
          pointer := 2, returned := some (.int 7) }]
        room := 1 }
      heap := { coroutines := #[⟨"seven",
        some { routine := 1, name := "seven", registers := #[.int 7], pointer := 2 }⟩] }
      dispatched := 4 } := by decide +kernel
  have again : m.Gives .yielding (s 4) 0 .resumed := by
    rw [yielded]
    exact ⟨_, _, _, _, ⟨rfl, rfl, rfl⟩, rfl, rfl, rfl⟩
  have yields : Executes .yielding (s 3)
      { routine := 1, name := "seven", registers := #[.int 7], pointer := 1, home := some 0 }
      (s 3).calls.items.tail Program.yielding.routines[1] Program.yielding.routines[1].body[1] :=
    ⟨by decide +kernel, rfl, rfl⟩
  obtain ⟨-, created⟩ := Machine.Reachable.resumption (yielding_reachable 0) creates
  obtain ⟨rested, -⟩ := Machine.Reachable.resumption (yielding_reachable 3) yields
  obtain ⟨name, rid, callee, named, found, present, pushes⟩ :=
    created rfl rfl 0 (fun _ small => nomatch small) first
  obtain rfl : "seven" = name := Except.ok.inj named
  obtain rfl : 1 = rid := Except.ok.inj found
  obtain rfl : Program.yielding.routines[1] = callee := Except.ok.inj present
  obtain ⟨-, resumes⟩ :=
    rested rfl 0 _ rfl (by decide +kernel) 0 (fun _ small => nomatch small)
  exact ⟨⟨first, pushes⟩, again, resumes again⟩

end RegisterMachine
