import RegisterMachine.Proofs.Activations
import Mathlib.Algebra.Order.Ring.Nat

/-!
Programs that only jump forward always stop. They may still recurse, and frames leave the stack and
come back; but read as a numeral the stack counts down. Each frame is a digit, what its function has
left and one more, and a frame on top of another is a digit of the next lower place: a call takes
one from the place of the caller and puts less than that in the place below it, a return takes a
digit away, and every other step lowers the last digit.
-/

namespace RegisterMachine

open Opcodes

/-- Every jump leads to a label of the function that stands behind it. -/
def Routine.Forward (r : Routine) : Prop :=
  ∀ (k : Nat) (i : Instruction), r.body[k]? = some i → i.opcode = "jump-to" ∨ i.opcode = "jump-if" →
    ∃ label index, i.name = .ok label ∧ LabelAt r.body label index ∧ k < index

def Program.Forward (p : Program) : Prop := ∀ r ∈ p.routines, r.Forward

def Program.longest (p : Program) : Nat := (p.routines.map fun r => r.body.length).max?.getD 0

theorem Program.length_le_longest {p : Program} {r : Routine} (member : r ∈ p.routines) :
    r.body.length ≤ p.longest :=
  List.le_max?_getD_of_mem (List.mem_map_of_mem member)

/-- The numeral of a stack with so much room above it. -/
def budget (longest : Nat) : (room : Nat) → List Frame → Nat
  | _, [] => 0
  | room, f :: below =>
    (longest - f.pointer + 1) * (longest + 2) ^ room + budget longest (room + 1) below

def State.budget (p : Program) (s : State) : Nat :=
  RegisterMachine.budget p.longest s.calls.room s.calls.items

section Numerals

variable {longest room : Nat} {f g : Frame} {below : List Frame}

theorem budget_advance (inside : f.pointer < longest) (ahead : f.pointer < g.pointer) :
    budget longest room (g :: below) < budget longest room (f :: below) := by
  have digit : longest - g.pointer + 1 < longest - f.pointer + 1 := by omega
  have place : 0 < (longest + 2) ^ room := Nat.pow_pos (by omega)
  exact Nat.add_lt_add_right (Nat.mul_lt_mul_of_pos_right digit place) _

theorem budget_push (inside : f.pointer < longest) :
    budget longest room (g :: f.advance :: below) < budget longest (room + 1) (f :: below) := by
  have digit : longest - f.pointer + 1 = longest - (f.pointer + 1) + 1 + 1 := by omega
  have top : longest - g.pointer + 1 < longest + 2 := by omega
  have place : 0 < (longest + 2) ^ room := Nat.pow_pos (by omega)
  have less : (longest - g.pointer + 1) * (longest + 2) ^ room < (longest + 2) ^ (room + 1) := by
    rw [pow_succ, Nat.mul_comm _ (longest + 2)]
    exact Nat.mul_lt_mul_of_pos_right top place
  calc budget longest room (g :: f.advance :: below)
      < (longest + 2) ^ (room + 1) + budget longest (room + 1) (f.advance :: below) :=
        Nat.add_lt_add_right less _
    _ = budget longest (room + 1) (f :: below) := by
        simp only [budget, Frame.advance, digit, Nat.succ_mul]
        omega

theorem budget_pop : budget longest (room + 1) below < budget longest room (f :: below) := by
  have place : 0 < (longest + 2) ^ room := Nat.pow_pos (by omega)
  exact Nat.lt_add_of_pos_left (Nat.mul_pos (Nat.succ_pos _) place)

theorem budget_delivery {p : Program} {opcode : String} {v : Value} {frames frames' : List Frame}
    {res : Except Failure Bool} (delivery : Delivery p opcode v frames res frames') (room : Nat) :
    budget longest room frames' = budget longest room frames := by
  cases delivery with
  | received received =>
    obtain ⟨site, q, -, -, -, rfl⟩ := Frame.receive_eq_ok received
    rfl
  | nobody | declined => rfl

end Numerals

section Steps

variable {p : Program} {s t : State} {f : Frame} {below : List Frame} {r : Routine}
  {i : Instruction} {depth : Nat}

theorem Executes.pointer_lt (executes : Executes p s f below r i) : f.pointer < p.longest := by
  have member := List.mem_of_getElem? (Program.routine_eq_ok_iff.mp executes.found)
  exact Nat.lt_of_lt_of_le (List.getElem?_eq_some_iff.mp executes.fetched).1
    (Program.length_le_longest member)

theorem Executes.moves_on {g : Frame} (prepared : p.Prepared) (forward : p.Forward)
    (executes : Executes p s f below r i) (kept : f.Continues p i g) : f.pointer < g.pointer := by
  obtain next | ⟨jumps, r', l, found, named, landed⟩ := kept.pointer
  · omega
  · obtain rfl := Except.ok.inj (executes.found.symm.trans found)
    have member := List.mem_of_getElem? (Program.routine_eq_ok_iff.mp found)
    obtain ⟨label, index, same, there, ahead⟩ := forward r member f.pointer i executes.fetched jumps
    obtain rfl := Except.ok.inj (named.symm.trans same)
    have target := (prepared.target_eq_ok_iff found).mpr there
    obtain rfl := Except.ok.inj (landed.symm.trans target)
    exact ahead

theorem Move.spends (prepared : p.Prepared) (forward : p.Forward)
    (executes : Executes p s f below r i) (limit : t.calls.limit = s.calls.limit)
    (move : Move p s f below i (.ok true) t) : t.budget p < s.budget p := by
  have inside := executes.pointer_lt
  have limit : t.calls.items.length + t.calls.room = below.length + 1 + s.calls.room := by
    rw [Stack.limit, Stack.limit, Stack.depth, Stack.depth, executes.top] at limit
    exact limit
  simp only [State.budget, executes.top]
  -- a digit to each place of the stack: a move lowers one, and fills no more than those below it
  cases move with
  | proceeds _ kept frames _ | creates _ _ _ _ kept frames _ =>
    have room : t.calls.room = s.calls.room := by
      rw [frames, List.length_cons] at limit
      omega
    rw [frames, room]
    exact budget_advance inside (executes.moves_on prepared forward kept)
  | enters _ _ _ _ frames _ | resumes _ _ _ frames _ =>
    have room : s.calls.room = t.calls.room + 1 := by
      rw [frames, List.length_cons, List.length_cons] at limit
      omega
    rw [frames, room]
    exact budget_push inside
  | leaves _ frames _ =>
    have room : t.calls.room = s.calls.room + 1 := by
      rw [frames] at limit
      omega
    rw [frames, room]
    exact budget_pop
  | hands _ _ delivery _ | rests _ _ delivery _ =>
    have room : t.calls.room = s.calls.room + 1 := by
      have level := delivery.length_eq
      omega
    rw [budget_delivery delivery, room]
    exact budget_pop

theorem Machine.attempt_spends (prepared : p.Prepared) (forward : p.Forward) (s : State)
    (success : ((standard depth).attempt p s).1 = .ok true) :
    ((standard depth).attempt p s).2.budget p < s.budget p := by
  have outcome := attempt_outcome depth p s
  obtain ⟨f, below, r, i, executes⟩ | ⟨-, stuck⟩ := outcome.executes_or_stays
  · exact (success ▸ outcome.move executes).spends prepared forward executes outcome.limit
  · exact absurd success stuck

theorem Machine.start_budget {sink : Sink} (started : (standard depth).start p sink = .ok s) :
    s.budget p < (p.longest + 2) ^ depth := by
  obtain ⟨id, f, entered, frames, limit, -⟩ := start_eq_ok started
  have room : s.calls.room + 1 = depth := by
    rw [Stack.limit, Stack.depth, frames, Nat.add_comm] at limit
    exact limit
  have place : 0 < (p.longest + 2) ^ s.calls.room := Nat.pow_pos (by omega)
  rw [State.budget, frames, ← room, pow_succ, Nat.mul_comm _ (p.longest + 2)]
  exact Nat.mul_lt_mul_of_pos_right (by omega) place

/-- In a prepared program whose jumps all lead forward, whatever it calls, creates and resumes, a
run with so many steps to go is over: it has halted or it has failed. -/
theorem Machine.execute_ends (prepared : p.Prepared) (forward : p.Forward) (depth : Nat)
    (sink : Sink) {steps : Nat} (enough : (p.longest + 2) ^ depth ≤ steps) :
    ((standard depth).execute p sink steps).1 = .halted ∨
      ∃ e, ((standard depth).execute p sink steps).1 = .failed e := by
  unfold execute
  cases started : (standard depth).start p sink with
  | error e => exact .inr ⟨⟨e, none⟩, rfl⟩
  | ok s =>
    have within := Nat.lt_of_lt_of_le (start_budget started) enough
    have ends := runFor_ends (m := standard depth) (attempt_spends prepared forward) within
    simp only
    cases ending : ((standard depth).runFor p steps s).1 with
    | halted => exact .inl rfl
    | failed e => exact .inr ⟨e, rfl⟩
    | unfinished => exact absurd ending ends

end Steps

def Program.recursing : Program where
  routines := [{
    name := "main"
    body := [
      { opcode := "jump-to", payload := .name "on" },
      { opcode := "fn-return" },
      { opcode := "jump-label", payload := .name "on" },
      { opcode := "fn-call", payload := .name "main" }]
    notes := ⟨[(labelKey, .labels [("on", 2)])]⟩ }]

theorem Machine.recursing_ends :
    Program.recursing.Prepared ∧ Program.recursing.Forward ∧
      (Program.recursing.longest + 2) ^ 3 = 216 ∧
      (((standard 3).execute .recursing {} 216).1 = .halted ∨
        ∃ e, ((standard 3).execute .recursing {} 216).1 = .failed e) := by
  have prepared : Program.recursing.Prepared :=
    ⟨3, ⟨⟨Program.recursing.routines.map fun r => { r with notes := {} }, {}⟩, []⟩,
      ⟨.recursing, []⟩, rfl, rfl⟩
  have forward : Program.recursing.Forward := by
    refine List.forall_mem_singleton.mpr fun k i fetched jumps => ?_
    match k with
    | 0 =>
      obtain rfl := Option.some.inj fetched
      exact ⟨"on", 2, rfl, ⟨_, rfl, rfl, rfl⟩, by decide⟩
    | 1 | 2 | 3 =>
      obtain rfl := Option.some.inj fetched
      exact absurd jumps (by decide)
    | k + 4 => cases fetched
  exact ⟨prepared, forward, rfl, execute_ends prepared forward 3 {} (Nat.le_refl 216)⟩

end RegisterMachine
