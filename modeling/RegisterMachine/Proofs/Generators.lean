import RegisterMachine.Proofs.Locality
import RegisterMachine.Proofs.Resumption

/-!
Coroutines whose function looks at nothing but its own frame. What such a coroutine does from one
resumption to its next yield depends on the function and on how often it was resumed before, and on
nothing else: not on who resumes it, nor on what runs in between, nor on the program around it. The
induction is on the number of resumptions; each activation begins where the one before it yielded.
-/

namespace RegisterMachine

/-- The program has the function `g` under its name. -/
def Program.Contains (p : Program) (g : Routine) : Prop := ∃ r, p.get g.name = .ok r ∧ r.Matches g

theorem Program.Prepared.contains {p : Program} {g r : Routine} (prepared : p.Prepared)
    (labelled : g.Labelled) (found : p.get g.name = .ok r) (same : r.body = g.body) :
    p.Contains g := by
  obtain ⟨id, named, present⟩ := bind_eq_ok_iff.mp found
  obtain ⟨r', present', name⟩ := find_eq_ok named
  obtain rfl := Except.ok.inj (present.symm.trans present')
  obtain ⟨table, noted, collected⟩ := prepared.labelled present
  obtain ⟨table', noted', collected'⟩ := labelled
  rw [Opcodes.labelTable, name, same] at collected
  obtain rfl := Except.ok.inj (collected.symm.trans collected')
  exact ⟨r, found, name, same, noted.trans noted'.symm⟩

namespace Machine

variable (m : Machine) (p : Program) (id : CoroutineId)

def Creates (s : State) (name : String) : Prop :=
  ∃ f below r i, Executes p s f below r i ∧ i.opcode = "co-create" ∧ i.name = .ok name ∧
    (m.attempt p s).1 = .ok true

/-- The run leads from `s` to a state and resumes the coroutine so many times on the way. -/
inductive Resumes (s : State) : Nat → State → Prop where
  | start : Resumes s 0 s
  | pass {k t} (before : Resumes s k t) (other : ¬m.Gives p t id .resumed) :
      Resumes s k (m.attempt p t).2
  | again {k t} (before : Resumes s k t) (given : m.Gives p t id .resumed) :
      Resumes s (k + 1) (m.attempt p t).2

/-- The coroutine, resumed `k` times since `s`, is resumed once more, and its activation begins in
the state `u`. -/
def Begins (s : State) (k : Nat) (u : State) : Prop :=
  ∃ t, m.Resumes p id s k t ∧ m.Gives p t id .resumed ∧ (m.attempt p t).2 = u

/-- The activation of the coroutine is on the stack from `u` on for so many steps. -/
def Lasts (u : State) (n : Nat) : Prop := ∀ j ≤ n, some id ∈ (m.after p u j).homes

end Machine

/-- A coroutine rests in a fresh activation of the function `g`, which looks at its own frame only.
-/
structure Generator (depth : Nat) (p : Program) (g : Routine) (s : State) (id : CoroutineId) :
    Prop where
  secluded : g.FrameLocal
  reached : (Machine.standard depth).Reachable p s
  fresh : ∃ f, (s.heap.coroutine id).parked = some f ∧ f.Plays p g ∧
    f.registers = Array.replicate g.registerCount .unset ∧ f.pointer = 0

/-- Where a coroutine of `g` is that was resumed so many times since `s`, and how it came there. -/
inductive Generator.History (depth : Nat) (p : Program) (g : Routine) (s : State)
    (id : CoroutineId) : Nat → State → Prop where
  | fresh {t f} (rested : (t.heap.coroutine id).parked = some f) (plays : f.Plays p g)
      (unset : f.registers = Array.replicate g.registerCount .unset) (begins : f.pointer = 0) :
      History depth p g s id 0 t
  | runs {k u n} (begins : (Machine.standard depth).Begins p id s k u)
      (plays : ∀ j ≤ n, ((Machine.standard depth).after p u j).Plays p g id) :
      History depth p g s id (k + 1) ((Machine.standard depth).after p u n)
  | rests {k u n t f below} (begins : (Machine.standard depth).Begins p id s k u)
      (plays : ∀ j ≤ n, ((Machine.standard depth).after p u j).Plays p g id)
      (top : ((Machine.standard depth).after p u n).calls.items = f :: below)
      (ended : some id ∉ ((Machine.standard depth).after p u (n + 1)).homes)
      (rested : (t.heap.coroutine id).parked = some { f.advance with home := none }) :
      History depth p g s id (k + 1) t
  | gone {k t} (dead : t.owners id = 0) : History depth p g s id k t

section Steps

variable {depth : Nat} {p : Program} {g : Routine} {s t u : State} {id : CoroutineId} {k n : Nat}
  {f : Frame} {i : Instruction} {res : Except Failure Bool} {d : Departure}

theorem State.Plays.running (plays : s.Plays p g id) : some id ∈ s.homes := by
  obtain ⟨f, below, top, home, -⟩ := plays
  rw [State.homes, top, List.map_cons, home]
  exact List.mem_cons_self

theorem State.owners_ne_zero (rested : (s.heap.coroutine id).parked = some f) : s.owners id ≠ 0 := by
  rw [State.owners, rested]
  exact Nat.ne_of_gt (Nat.add_pos_left Nat.one_pos _)

theorem Handover.popped (handover : Handover s f i res t)
    (popped : t.calls.depth + 1 = s.calls.depth) : s.homes = f.home :: t.homes := by
  have shorter : t.homes.length + 1 = s.homes.length := by
    rw [State.homes_length, State.homes_length, popped]
  cases handover with
  | leaves homes | rests homes => exact homes
  | creates homes | loses _ homes =>
    rw [homes] at shorter
    omega
  | resumes _ homes =>
    rw [homes, List.length_cons] at shorter
    omega
  | stays homes =>
    obtain homes | homes := homes
    · rw [homes] at shorter
      omega
    · rw [homes, List.length_cons] at shorter
      omega

theorem Handover.parks (handover : Handover s f i res t) (owned : s.Owned)
    (due : Turn.yielded.Due s f i res t id) :
    (t.heap.coroutine id).parked = some { f.advance with home := none } := by
  cases handover with
  | stays _ _ none | creates _ _ _ none => exact absurd due (none id _)
  | resumes _ _ _ only | loses _ _ _ only | leaves _ _ only => exact nomatch ((only id _).mp due).1
  | rests homes handles only =>
    have home := ((only id _).mp due).2
    have known : id < s.heap.nextCoroutine := owned.known id (homes ▸ home ▸ List.mem_cons_self)
    rw [handles, Heap.parked_rest, if_pos ⟨home, known⟩]

theorem State.Departs.ended (departs : s.Departs p d) (owned : s.Owned) (plays : s.Plays p g id)
    (depth : Nat) : some id ∉ ((Machine.standard depth).attempt p s).2.homes := by
  have popped := departs.pops depth
  obtain ⟨f, below, r, i, executes, -⟩ := departs
  obtain ⟨f', below', top, home, -⟩ := plays
  obtain ⟨rfl, rfl⟩ := List.cons.inj (executes.top.symm.trans top)
  have homes := ((executes.move depth).handover executes.top).popped popped
  exact owned.not_mem_rest (home ▸ homes)

theorem State.Plays.attempt (plays : s.Plays p g id) (secluded : g.FrameLocal)
    (stays : ∀ d, ¬s.Departs p d) (depth : Nat) :
    ((Machine.standard depth).attempt p s).2.Plays p g id :=
  (plays.mirrors_self.attempt secluded stays depth depth).2.left

theorem State.Departs.gives (departs : s.Departs p d) (plays : s.Plays p g id) (depth : Nat) :
    ∃ turn, (Machine.standard depth).Gives p s id turn := by
  have popped := departs.pops depth
  obtain ⟨f, below, r, i, executes, due⟩ := departs
  obtain ⟨f', below', top, home, -⟩ := plays
  obtain ⟨rfl, rfl⟩ := List.cons.inj (executes.top.symm.trans top)
  have less : ((Machine.standard depth).attempt p s).2.calls.depth < s.calls.depth := by omega
  cases d with
  | leaves =>
    exact ⟨.returned, f, below, r, i, executes, List.mem_append_left _ due, home, less⟩
  | returns v =>
    exact ⟨.returned, f, below, r, i, executes, List.mem_append_right _ due.1, home, less⟩
  | yields v => exact ⟨.yielded, f, below, r, i, executes, due.1, home, less⟩

end Steps

namespace Machine

variable {depth : Nat} {p : Program} {s t u : State} {id : CoroutineId} {k n : Nat}

theorem Resumes.reachable (resumes : (standard depth).Resumes p id s k t)
    (reached : (standard depth).Reachable p s) : (standard depth).Reachable p t := by
  induction resumes with
  | start => exact reached
  | pass _ _ ih | again _ _ ih => exact ih.step

theorem Resumes.given (resumes : (standard depth).Resumes p id s k t)
    (given : id < s.heap.nextCoroutine) : id < t.heap.nextCoroutine := by
  induction resumes with
  | start => exact given
  | pass _ _ ih | again _ _ ih => exact (attempt_owners_le depth p ih).1

theorem Begins.reachable (begins : (standard depth).Begins p id s k u)
    (reached : (standard depth).Reachable p s) : (standard depth).Reachable p u := by
  obtain ⟨t, resumes, -, rfl⟩ := begins
  exact (resumes.reachable reached).step

end Machine

namespace Generator

open Machine

variable {depth depth' : Nat} {p p' : Program} {g : Routine} {s s' t u u' : State}
  {id id' : CoroutineId} {k n n' : Nat} {f : Frame}

namespace History

theorem rested_plays (history : History depth p g s id k t) (owned : t.Owned)
    (rested : (t.heap.coroutine id).parked = some f) : f.Plays p g := by
  cases history with
  | fresh found plays => exact Option.some.inj (found.symm.trans rested) ▸ plays
  | @runs k u n begins plays =>
    exact absurd (plays n (Nat.le_refl n)).running (owned.not_running rested)
  | @rests k u n t h below begins plays top ended found =>
    obtain ⟨h', below', top', -, activates⟩ := plays n (Nat.le_refl n)
    obtain ⟨rfl, rfl⟩ := List.cons.inj (top.symm.trans top')
    exact Option.some.inj (found.symm.trans rested) ▸ activates
  | gone dead => exact absurd dead (State.owners_ne_zero rested)

theorem fresh_of_rested (history : History depth p g s id 0 t)
    (rested : (t.heap.coroutine id).parked = some f) :
    f.registers = Array.replicate g.registerCount .unset ∧ f.pointer = 0 := by
  cases history with
  | fresh found plays unset begins => exact Option.some.inj (found.symm.trans rested) ▸ ⟨unset,
      begins⟩
  | gone dead => exact absurd dead (State.owners_ne_zero rested)

theorem yielded_of_rested (history : History depth p g s id (k + 1) t) (owned : t.Owned)
    (rested : (t.heap.coroutine id).parked = some f) :
    ∃ u n h below, (standard depth).Begins p id s k u ∧ (standard depth).Lasts p id u n ∧
      ((standard depth).after p u n).calls.items = h :: below ∧
      some id ∉ ((standard depth).after p u (n + 1)).homes ∧ f = { h.advance with home := none } := by
  cases history with
  | @runs _ u n begins plays =>
    exact absurd (plays n (Nat.le_refl n)).running (owned.not_running rested)
  | @rests _ u n _ h below begins plays top ended found =>
    have lasts : (standard depth).Lasts p id u n := fun j within => (plays j within).running
    exact ⟨u, n, h, below, begins, lasts, top, ended, Option.some.inj (rested.symm.trans found)⟩
  | gone dead => exact absurd dead (State.owners_ne_zero rested)

theorem pass (history : History depth p g s id k t) (secluded : g.FrameLocal)
    (reached : (standard depth).Reachable p t) (given : id < t.heap.nextCoroutine)
    (other : ¬(standard depth).Gives p t id .resumed) :
    History depth p g s id k ((standard depth).attempt p t).2 := by
  cases history with
  | fresh rested plays unset begins =>
    obtain kept | ⟨-, gone⟩ := reached.rests_on rested other
    · exact .fresh kept plays unset begins
    · exact .gone gone
  | rests begins plays top ended rested =>
    obtain kept | ⟨-, gone⟩ := reached.rests_on rested other
    · exact .rests begins plays top ended kept
    · exact .gone gone
  | @runs k u n begins plays =>
    have now := plays n (Nat.le_refl n)
    have running := State.standing_running (reached.owned.parked_eq_none now.running) now.running
    obtain ⟨-, calm⟩ | ⟨turn, gives, before, after⟩ := reached.turn given
    · have stays : ∀ d, ¬((standard depth).after p u n).Departs p d := by
        intro d departs
        obtain ⟨turn, gives⟩ := departs.gives now depth
        exact calm turn gives
      refine .runs (n := n + 1) begins fun j within => ?_
      obtain within | rfl := Nat.le_succ_iff.mp within
      · exact plays j within
      · exact now.attempt secluded stays depth
    · cases turn with
      | resumed => exact absurd gives other
      | lost => exact nomatch running.symm.trans before
      | returned => exact .gone (State.standing_eq_dead_iff.mp after)
      | yielded =>
        obtain ⟨f, below, r, i, executes, due⟩ := gives
        have handover := (executes.move depth).handover executes.top
        have rested := handover.parks reached.owned due
        exact .rests begins plays executes.top (reached.step.owned.not_running rested) rested
  | gone dead => exact .gone (Nat.le_zero.mp (dead ▸ (attempt_owners_le depth p given).2))

theorem again (history : History depth p g s id k t) (reached : (standard depth).Reachable p t)
    (resumes : (standard depth).Resumes p id s k t)
    (given : (standard depth).Gives p t id .resumed) :
    History depth p g s id (k + 1) ((standard depth).attempt p t).2 := by
  obtain ⟨parked, rested, f, below, -, pushed⟩ := given.putsOnTop
  have plays := history.rested_plays reached.owned rested
  refine .runs (n := 0) ⟨t, resumes, given, rfl⟩ fun j within => ?_
  obtain rfl := Nat.le_zero.mp within
  exact ⟨_, _, pushed, rfl, plays⟩

end History

theorem history (made : Generator depth p g s id)
    (resumes : (standard depth).Resumes p id s k t) : History depth p g s id k t := by
  obtain ⟨f, rested, plays, unset, begins⟩ := made.fresh
  have given := Heap.parked_lt rested
  induction resumes with
  | start => exact .fresh rested plays unset begins
  | pass before other ih =>
    exact ih.pass made.secluded (before.reachable made.reached) (before.given given) other
  | again before given ih => exact ih.again (before.reachable made.reached) before given

theorem lasts_mirrors (depth' : Nat) (secluded : g.FrameLocal)
    (reached : (standard depth).Reachable p u) (mirrors : u.Mirrors g p id p' u' id')
    (lasts : (standard depth).Lasts p id u n) :
    (standard depth').Lasts p' id' u' n ∧
      ((standard depth).after p u n).Mirrors g p id p' ((standard depth').after p' u' n) id' := by
  induction n with
  | zero =>
    refine ⟨fun j within => ?_, mirrors⟩
    obtain rfl := Nat.le_zero.mp within
    exact mirrors.symm.left.running
  | succ n ih =>
    obtain ⟨also, mirrors⟩ := ih fun j within => lasts j (Nat.le_succ_of_le within)
    have stays : ∀ d, ¬((standard depth).after p u n).Departs p d := fun d departs =>
      departs.ended (reached.after n).owned mirrors.left depth (lasts (n + 1) (Nat.le_refl _))
    obtain ⟨-, next⟩ := mirrors.attempt secluded stays depth depth'
    refine ⟨fun j within => ?_, next⟩
    obtain within | rfl := Nat.le_succ_iff.mp within
    · exact also j within
    · exact next.symm.left.running

theorem ended_le (secluded : g.FrameLocal) (reached' : (standard depth').Reachable p' u')
    (mirrors : u.Mirrors g p id p' u' id') (lasts : (standard depth').Lasts p' id' u' n')
    (ended : some id ∉ ((standard depth).after p u (n + 1)).homes) : n' ≤ n := by
  refine Nat.le_of_not_lt fun longer => ?_
  have still : (standard depth').Lasts p' id' u' (n + 1) := fun j within => lasts j (by omega)
  obtain ⟨also, -⟩ := lasts_mirrors depth secluded reached' mirrors.symm still
  exact ended (also (n + 1) (Nat.le_refl _))

theorem resumed_mirrors {t' : State} (given : (standard depth).Gives p t id .resumed)
    (given' : (standard depth').Gives p' t' id' .resumed)
    (twins : ∀ f f', (t.heap.coroutine id).parked = some f →
      (t'.heap.coroutine id').parked = some f' → Frame.Twins g p f p' f') :
    ((standard depth).attempt p t).2.Mirrors g p id p' ((standard depth').attempt p' t').2 id' := by
  obtain ⟨q, rested, f, below, -, pushed⟩ := given.putsOnTop
  obtain ⟨q', rested', f', below', -, pushed'⟩ := given'.putsOnTop
  obtain ⟨left, right, registers, pointer⟩ := twins q q' rested rested'
  exact ⟨_, _, _, _, pushed, pushed', rfl, rfl, left, right, registers, pointer⟩

theorem begins_mirrors (made : Generator depth p g s id) (made' : Generator depth' p' g s' id')
    (begins : (standard depth).Begins p id s k u)
    (begins' : (standard depth').Begins p' id' s' k u') : u.Mirrors g p id p' u' id' := by
  -- by the number of resumptions: fresh frames are twins, and so is what twins leave at a yield
  induction k generalizing u u' with
  | zero =>
    obtain ⟨t, resumes, given, rfl⟩ := begins
    obtain ⟨t', resumes', given', rfl⟩ := begins'
    have owned := (resumes.reachable made.reached).owned
    have owned' := (resumes'.reachable made'.reached).owned
    refine resumed_mirrors given given' fun f f' rested rested' => ?_
    have history := made.history resumes
    have history' := made'.history resumes'
    obtain ⟨unset, start⟩ := history.fresh_of_rested rested
    obtain ⟨unset', start'⟩ := history'.fresh_of_rested rested'
    exact ⟨history.rested_plays owned rested, history'.rested_plays owned' rested',
      unset.trans unset'.symm, start.trans start'.symm⟩
  | succ k ih =>
    obtain ⟨t, resumes, given, rfl⟩ := begins
    obtain ⟨t', resumes', given', rfl⟩ := begins'
    have owned := (resumes.reachable made.reached).owned
    have owned' := (resumes'.reachable made'.reached).owned
    refine resumed_mirrors given given' fun f f' rested rested' => ?_
    obtain ⟨u, n, h, below, began, lasts, top, ended, rfl⟩ :=
      (made.history resumes).yielded_of_rested owned rested
    obtain ⟨u', n', h', below', began', lasts', top', ended', rfl⟩ :=
      (made'.history resumes').yielded_of_rested owned' rested'
    have mirrors := ih began began'
    have reached := began.reachable made.reached
    have reached' := began'.reachable made'.reached
    obtain rfl : n = n' := Nat.le_antisymm
      (ended_le made.secluded reached mirrors.symm lasts ended')
      (ended_le made.secluded reached' mirrors lasts' ended)
    obtain ⟨-, g₁, below₁, g₂, below₂, top₁, top₂, -, -, twins⟩ :=
      lasts_mirrors depth' made.secluded reached mirrors lasts
    obtain ⟨rfl, rfl⟩ := List.cons.inj (top.symm.trans top₁)
    obtain ⟨rfl, rfl⟩ := List.cons.inj (top'.symm.trans top₂)
    exact ⟨twins.left, twins.right, twins.registers, congrArg (· + 1) twins.pointer⟩

end Generator

section Steps

open Machine

variable {depth depth' : Nat} {p p' : Program} {g : Routine} {s s' u u' : State} {k : Nat}

theorem Machine.Creates.generator (creates : (standard depth).Creates p s g.name)
    (secluded : g.FrameLocal) (contains : p.Contains g)
    (reached : (standard depth).Reachable p s) :
    Generator depth p g ((standard depth).attempt p s).2 s.heap.nextCoroutine := by
  obtain ⟨f, below, q, i, executes, opcode, named, success⟩ := creates
  obtain ⟨name, rid, parked, same, found, entered, rested⟩ := executes.created opcode success
  obtain rfl := Except.ok.inj (named.symm.trans same)
  obtain ⟨r, present, matching⟩ := contains
  rw [Program.get, found, ok_bind] at present
  obtain ⟨r', present', -, rfl⟩ := Frame.enter_eq_ok_iff.mp entered
  obtain rfl := Except.ok.inj (present.symm.trans present')
  have count : r.registerCount = g.registerCount := by
    rw [Routine.registerCount, Routine.registerCount, matching.body]
  refine ⟨secluded, reached.step, _, rested, ⟨r, present, matching, matching.name⟩, ?_, rfl⟩
  simp [count]

/-- Two coroutines of one function that looks at its own frame only, in one run or in two, resumed
equally often: their activations last for equally many steps, with the same contents of their
registers at each, and end alike. -/
theorem Machine.generators_agree (secluded : g.FrameLocal) (contains : p.Contains g)
    (contains' : p'.Contains g) (reached : (standard depth).Reachable p s)
    (reached' : (standard depth').Reachable p' s')
    (creates : (standard depth).Creates p s g.name)
    (creates' : (standard depth').Creates p' s' g.name)
    (begins : (standard depth).Begins p s.heap.nextCoroutine ((standard depth).attempt p s).2 k u)
    (begins' : (standard depth').Begins p' s'.heap.nextCoroutine
      ((standard depth').attempt p' s').2 k u') (n : Nat) :
    let id := s.heap.nextCoroutine
    let id' := s'.heap.nextCoroutine
    let v := (standard depth).after p u n
    let v' := (standard depth').after p' u' n
    ((standard depth).Lasts p id u n ↔ (standard depth').Lasts p' id' u' n) ∧
      ((standard depth).Lasts p id u n →
        v.Mirrors g p id p' v' id' ∧
        (∀ d, v.Departs p d ↔ v'.Departs p' d) ∧
        ((standard depth).Lasts p id u (n + 1) ↔ ∀ d, ¬v.Departs p d) ∧
        ((∀ d, ¬v.Departs p d) →
          ((standard depth).attempt p v).1 = ((standard depth').attempt p' v').1)) := by
  intro id id' v v'
  have made := creates.generator secluded contains reached
  have made' := creates'.generator secluded contains' reached'
  have started := begins.reachable made.reached
  have started' := begins'.reachable made'.reached
  have twins := Generator.begins_mirrors made made' begins begins'
  refine ⟨⟨fun lasts => ?_, fun lasts' => ?_⟩, fun lasts => ?_⟩
  · exact (Generator.lasts_mirrors depth' secluded started twins lasts).1
  · exact (Generator.lasts_mirrors depth secluded started' twins.symm lasts').1
  · obtain ⟨-, mirrors⟩ := Generator.lasts_mirrors depth' secluded started twins lasts
    refine ⟨mirrors, fun d => mirrors.departs_iff, ⟨fun longer d departs => ?_, fun stays => ?_⟩,
      fun stays => (mirrors.attempt secluded stays depth depth').1⟩
    · have ended := departs.ended (started.after n).owned mirrors.left depth
      exact ended (longer (n + 1) (Nat.le_refl _))
    · intro j within
      obtain within | rfl := Nat.le_succ_iff.mp within
      · exact lasts j within
      · exact (mirrors.left.attempt secluded stays depth).running

end Steps

section Running

instance (g : Routine) : Decidable g.FrameLocal :=
  inferInstanceAs (Decidable (∀ i ∈ g.body, i.opcode ∈ Opcodes.frameLocal))

def State.Invokes (p : Program) (s : State) (id : CoroutineId) : Prop :=
  ∃ f below r i, Executes p s f below r i ∧ i.opcode = "co-invoke" ∧
    f.operand i 0 = .ok (.coroutine id)

theorem State.invokes_iff {p : Program} {s : State} {id : CoroutineId} :
    s.Invokes p id ↔ ∃ f ∈ s.calls.top?, ∃ i ∈ p.fetch? f.routine f.pointer,
      i.opcode = "co-invoke" ∧ (f.operand i 0).toOption = some (.coroutine id) := by
  simp only [toOption_eq_some_iff]
  constructor
  · intro invokes
    obtain ⟨f, below, r, i, executes, opcode, named⟩ := invokes
    have present := Program.routine_eq_ok_iff.mp executes.found
    have fetched : p.fetch? f.routine f.pointer = some i := by
      simp [Program.fetch?, present, executes.fetched]
    exact ⟨f, by simp [Stack.top?, executes.top], i, fetched, opcode, named⟩
  · intro read
    obtain ⟨f, top, i, fetched, opcode, named⟩ := read
    obtain ⟨below, top⟩ := List.head?_eq_some_iff.mp top
    obtain ⟨r, present, fetched⟩ := Option.bind_eq_some_iff.mp fetched
    have found := Program.routine_eq_ok_iff.mpr present
    exact ⟨f, below, r, i, ⟨top, found, fetched⟩, opcode, named⟩

instance (p : Program) (s : State) (id : CoroutineId) : Decidable (s.Invokes p id) :=
  decidable_of_iff' _ State.invokes_iff

theorem Machine.gives_resumed_iff {m : Machine} {p : Program} {s : State} {id : CoroutineId} :
    m.Gives p s id .resumed ↔ s.Invokes p id ∧ (m.attempt p s).1.toOption = some true := by
  rw [toOption_eq_some_iff]
  constructor
  · intro given
    obtain ⟨f, below, r, i, executes, opcode, named, success⟩ := given
    exact ⟨⟨f, below, r, i, executes, opcode, named⟩, success⟩
  · intro read
    obtain ⟨⟨f, below, r, i, executes, opcode, named⟩, success⟩ := read
    exact ⟨f, below, r, i, executes, opcode, named, success⟩

instance (m : Machine) (p : Program) (s : State) (id : CoroutineId) :
    Decidable (m.Gives p s id .resumed) := decidable_of_iff' _ Machine.gives_resumed_iff

end Running

def Program.alternating : Program where
  routines := [
    Program.yielding.routines[1],
    { name := "main"
      body := [
        { opcode := "co-create", output := some 0, payload := .name "seven" },
        { opcode := "co-create", output := some 1, payload := .name "seven" },
        { opcode := "co-invoke", inputs := [0], output := some 2 },
        { opcode := "co-invoke", inputs := [1], output := some 2 },
        { opcode := "co-invoke", inputs := [0], output := some 2 },
        { opcode := "fn-return" }]
      notes := ⟨[(Opcodes.labelKey, .labels [])]⟩ }]

def State.alternating : State where
  calls := { items := [{ routine := 1, name := "main", registers := #[.unset, .unset, .unset] }]
             room := 3 }

theorem State.alternating_agrees :
    let m := Machine.standard 2
    let m' := Machine.standard 4
    let u := m.after .yielding yielding 5
    let u' := m'.after .alternating alternating 9
    m.Lasts .yielding 0 u 0 ∧ ∀ n, (m.Lasts .yielding 0 u n ↔ m'.Lasts .alternating 0 u' n) ∧
      (m.Lasts .yielding 0 u n →
        (m.after .yielding u n).Mirrors Program.yielding.routines[1] .yielding 0 .alternating
          (m'.after .alternating u' n) 0) := by
  intro m m' u u'
  have reached : m.Reachable .yielding yielding := yielding_reachable 0
  have started : m'.start .alternating {} = .ok alternating := rfl
  have reached' : m'.Reachable .alternating alternating := .start started
  have creates : m.Creates .yielding yielding "seven" :=
    ⟨_, _, _, _, ⟨rfl, rfl, rfl⟩, rfl, rfl, rfl⟩
  have creates' : m'.Creates .alternating alternating "seven" :=
    ⟨_, _, _, _, ⟨rfl, rfl, rfl⟩, rfl, rfl, rfl⟩
  have begins : m.Begins .yielding 0 (m.attempt .yielding yielding).2 1 u := by
    have first : m.Resumes .yielding 0 (m.attempt .yielding yielding).2 1
        (m.after .yielding yielding 2) := .again .start (by decide +kernel)
    exact ⟨m.after .yielding yielding 4, (first.pass (by decide +kernel)).pass (by decide +kernel),
      by decide +kernel, rfl⟩
  have begins' : m'.Begins .alternating 0 (m'.attempt .alternating alternating).2 1 u' := by
    have first : m'.Resumes .alternating 0 (m'.attempt .alternating alternating).2 1
        (m'.after .alternating alternating 3) := .again (.pass .start (by decide +kernel))
          (by decide +kernel)
    have other : m'.Resumes .alternating 0 (m'.attempt .alternating alternating).2 1
        (m'.after .alternating alternating 6) := .pass (.pass (.pass first (by decide +kernel))
          (by decide +kernel)) (by decide +kernel)
    exact ⟨m'.after .alternating alternating 8,
      (other.pass (by decide +kernel)).pass (by decide +kernel), by decide +kernel, rfl⟩
  have lasts : m.Lasts .yielding 0 u 0 := by
    intro j within
    obtain rfl := Nat.le_zero.mp within
    decide +kernel
  have secluded : Program.yielding.routines[1].FrameLocal := by decide +kernel
  have prepared' : Program.alternating.Prepared :=
    ⟨4, ⟨⟨Program.alternating.routines.map fun r => { r with notes := {} }, {}⟩, []⟩,
      ⟨.alternating, []⟩, rfl, rfl⟩
  have labelled : Program.yielding.routines[1].Labelled := ⟨[], rfl, rfl⟩
  have contains := Program.yielding_prepared.contains labelled rfl rfl
  have contains' := prepared'.contains labelled rfl rfl
  refine ⟨lasts, fun n => ?_⟩
  have agree := Machine.generators_agree secluded contains contains' reached reached' creates creates'
    begins begins' n
  exact ⟨agree.1, fun lasts => (agree.2 lasts).1⟩

end RegisterMachine
