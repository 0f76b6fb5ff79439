import RegisterMachine.Proofs.Preparing
import RegisterMachine.Proofs.Relocation
import Mathlib.Order.Bounds.Defs

/-!
The directory of a program. One pass over a list of functions writes the position of each under its
name, and a name that is written already ends the pass; the list makes a program when the pass comes
to its end. A directory leads from a name to the function that has it, and from any other name
nowhere. Nothing is written later: the directory stays right however often the program is prepared,
and it is right for the program that is decoded from the encoded list. With the functions stay their
numbers of registers, of which each is the least that is enough.
-/

namespace RegisterMachine

/-- Positions under names. -/
abbrev Directory := List (String × RoutineId)

namespace Directory

def find (d : Directory) (name : String) : Except Fault RoutineId :=
  match d.lookup name with
  | some id => .ok id
  | none => .error (.unknownRoutine name)

def extend (d : Directory) (position : RoutineId) : List Routine → Except Fault Directory
  | [] => .ok d
  | r :: rest =>
    if (d.lookup r.name).isSome then .error (.duplicateRoutine r.name)
    else extend ((r.name, position) :: d) (position + 1) rest

def ofRoutines (routines : List Routine) : Except Fault Directory := extend [] 0 routines

section Pass

variable {d : Directory} {rs : List Routine} {name : String} {id : RoutineId}

theorem extend_eq (d : Directory) (position : RoutineId) (rs : List Routine) :
    d.extend position rs = match firstRepeat? (d.map Prod.fst) (rs.map Routine.name) with
      | some name => .error (.duplicateRoutine name)
      | none => .ok (((rs.map Routine.name).zipIdx position).reverse ++ d) := by
  induction rs generalizing d position with
  | nil => rfl
  | cons r rest ih =>
    have taken : (d.lookup r.name).isSome ↔ r.name ∈ d.map Prod.fst := by
      simp [List.lookup_isSome_iff]
    simp only [extend, List.map_cons, firstRepeat?, taken]
    split
    · rfl
    · rw [ih, List.map_cons, List.zipIdx_cons, List.reverse_cons, List.append_assoc]
      rfl

theorem ofRoutines_eq (rs : List Routine) :
    Directory.ofRoutines rs = match repeated? (rs.map Routine.name) with
      | some name => .error (.duplicateRoutine name)
      | none => .ok (rs.map Routine.name).zipIdx.reverse := by
  rw [ofRoutines, extend_eq, List.append_nil]
  rfl

theorem program_ofRoutines (rs : List Routine) :
    Program.ofRoutines rs = (Directory.ofRoutines rs).map fun _ => { routines := rs } := by
  rw [ofRoutines_eq, Program.ofRoutines]
  cases repeated? (rs.map Routine.name) <;> rfl

theorem ofRoutines_eq_ok_iff : Directory.ofRoutines rs = .ok d ↔
    (rs.map Routine.name).Nodup ∧ d = (rs.map Routine.name).zipIdx.reverse := by
  rw [ofRoutines_eq, ← repeated?_eq_none_iff]
  cases repeated? (rs.map Routine.name) <;> simp [eq_comm]

theorem ofRoutines_congr {rs rs' : List Routine}
    (same : rs'.map Routine.name = rs.map Routine.name) :
    Directory.ofRoutines rs' = Directory.ofRoutines rs := by
  rw [ofRoutines_eq, ofRoutines_eq, same]

theorem lookup_eq_some_iff (written : Directory.ofRoutines rs = .ok d) :
    d.lookup name = some id ↔ ∃ r, rs[id]? = some r ∧ r.name = name := by
  obtain ⟨distinct, rfl⟩ := ofRoutines_eq_ok_iff.mp written
  have keys : ((rs.map Routine.name).zipIdx.reverse.map Prod.fst).Nodup := by
    rwa [List.map_reverse, List.zipIdx_map_fst, List.nodup_reverse]
  rw [lookup_eq_some_iff_mem keys, List.mem_reverse, List.mk_mem_zipIdx_iff_getElem?,
    List.getElem?_map, Option.map_eq_some_iff]

end Pass

/-- The program finds what the directory says, and that is where the name is, if it is anywhere. -/
structure Exact (d : Directory) (p : Program) : Prop where
  consulted : ∀ name, p.find name = d.find name
  found : ∀ name id, p.find name = .ok id ↔ ∃ r, p.routines[id]? = some r ∧ r.name = name
  unknown : ∀ name e, p.find name = .error e ↔
    e = .unknownRoutine name ∧ ∀ r ∈ p.routines, r.name ≠ name
  got : ∀ name r, p.get name = .ok r ↔ r ∈ p.routines ∧ r.name = name
  missing : ∀ name e, p.get name = .error e ↔
    e = .unknownRoutine name ∧ ∀ r ∈ p.routines, r.name ≠ name

end Directory

section Lookups

variable {p : Program} {name : String} {id : RoutineId} {r : Routine} {e : Fault}

theorem Program.get_eq_error_iff : p.get name = .error e ↔ p.find name = .error e := by
  unfold get
  cases found : p.find name with
  | error e' => simp only [error_bind, Except.error.injEq]
  | ok id =>
    obtain ⟨r, present, -⟩ := find_eq_ok found
    simp [ok_bind, present]

theorem Program.get_eq_ok_iff (distinct : (p.routines.map Routine.name).Nodup) :
    p.get name = .ok r ↔ r ∈ p.routines ∧ r.name = name := by
  constructor
  · intro got
    obtain ⟨id, found, present⟩ := bind_eq_ok_iff.mp got
    obtain ⟨r', also, named⟩ := find_eq_ok found
    obtain rfl := Except.ok.inj (present.symm.trans also)
    exact ⟨List.mem_of_getElem? (routine_eq_ok_iff.mp present), named⟩
  · rintro ⟨member, rfl⟩
    exact get_of_mem distinct member

theorem Directory.exact_of_ofRoutines {d : Directory}
    (written : Directory.ofRoutines p.routines = .ok d) : d.Exact p := by
  obtain ⟨distinct, -⟩ := ofRoutines_eq_ok_iff.mp written
  have found (name : String) (id : RoutineId) :
      p.find name = .ok id ↔ ∃ r, p.routines[id]? = some r ∧ r.name = name := by
    simp only [Program.find_eq_ok_iff distinct, Program.routine_eq_ok_iff]
  refine ⟨fun name => ?_, found, fun name e => Program.find_eq_error_iff,
    fun name r => Program.get_eq_ok_iff distinct,
    fun name e => Program.get_eq_error_iff.trans Program.find_eq_error_iff⟩
  unfold Directory.find
  cases listed : d.lookup name with
  | some id => exact (found name id).mpr ((lookup_eq_some_iff written).mp listed)
  | none =>
    refine Program.find_eq_error_iff.mpr ⟨rfl, fun r member named => ?_⟩
    obtain ⟨id, here⟩ := List.mem_iff_getElem?.mp member
    exact nomatch listed.symm.trans ((lookup_eq_some_iff written).mpr ⟨r, here, named⟩)

end Lookups

/-- So many registers are enough for all that the instructions mention. -/
def Routine.Suffices (r : Routine) (count : Nat) : Prop :=
  ∀ i ∈ r.body, (∀ q ∈ i.inputs, q < count) ∧ ∀ q ∈ i.output, q < count

theorem Routine.suffices_iff {r : Routine} {count : Nat} :
    r.Suffices count ↔ ∀ q ∈ r.body.flatMap Instruction.registers, q < count := by
  simp only [Suffices, Instruction.registers, List.forall_mem_flatMap, List.forall_mem_append,
    Option.mem_toList, Option.mem_def]

theorem Routine.isLeast_registerCount {r : Routine}
    (numbered : ∀ q ∈ r.body.flatMap Instruction.registers, q < UInt64.size - 1) :
    IsLeast { c | r.Suffices c } r.registerCount := by
  have enough {count : Nat} : r.Suffices count ↔ r.registerCount ≤ count :=
    suffices_iff.trans (registerCount_le_iff numbered).symm
  exact ⟨enough.mpr (Nat.le_refl _), fun _ fits => enough.mp fits⟩

theorem Directory.exact_later {d : Directory} {rs : List Routine} {p q : Program}
    (written : Directory.ofRoutines rs = .ok d)
    (same : p.routines.map Routine.bare = rs.map Routine.bare)
    (later : Relation.ReflTransGen Program.Becomes p q) :
    q.routines.map Routine.bare = rs.map Routine.bare ∧ d.Exact q := by
  have code : q.routines.map Routine.bare = rs.map Routine.bare :=
    (congrArg Program.routines (Program.keeps_of_becomes later).code).trans same
  have names : q.routines.map Routine.name = rs.map Routine.name := by
    rw [← q.names_bare, ← Program.names_bare { routines := rs }]
    exact congrArg (List.map Routine.name) code
  exact ⟨code, exact_of_ofRoutines ((ofRoutines_congr names).trans written)⟩

theorem Wire.decode_routines {rs : List Routine} {e : List UInt8}
    (phrase : Grammar.list Grammar.routine rs e) (rest : List UInt8) :
    decode (e ++ rest) = if (rs.map Routine.name).Nodup
      then .ok { routines := rs.map Routine.bare } else .error .rejected := by
  split
  · next distinct => exact decode_phrase (p := { routines := rs }) rest distinct phrase
  · next repeated => exact decode_repeated (p := { routines := rs }) rest repeated phrase

/-- A list of functions makes a program, and what it is encoded to decodes, if the names are
distinct; else the first repeated one is reported. However often the program is prepared, its
directory is exact and each function counts as few registers as are enough. -/
theorem Program.names_and_registers (rs : List Routine)
    (lengths : ∀ n ∈ Program.lengths { routines := rs }, n < UInt64.size)
    (registers : ∀ q ∈ Program.registers { routines := rs }, q < UInt64.size - 1) :
    let names := rs.map Routine.name
    let bytes := Wire.list Wire.routine rs
    ofRoutines rs = (Directory.ofRoutines rs).map (fun _ => { routines := rs }) ∧
      (∀ p, ofRoutines rs = .ok p ↔ names.Nodup ∧ p = { routines := rs }) ∧
      (∀ e, ofRoutines rs = .error e ↔ ∃ before name after, names = before ++ name :: after ∧
        before.Nodup ∧ name ∈ before ∧ e = .duplicateRoutine name) ∧
      (∀ rest p, Wire.decode (bytes ++ rest) = .ok p ↔
        names.Nodup ∧ p = { routines := rs.map Routine.bare }) ∧
      (∀ rest d, Wire.decode (bytes ++ rest) = .error d ↔ ¬names.Nodup ∧ d = .rejected) ∧
      (∀ r ∈ rs, IsLeast { c | r.Suffices c } r.registerCount ∧ r.registerCount < UInt64.size) ∧
      ∀ p, (ofRoutines rs = .ok p ∨ ∃ rest, Wire.decode (bytes ++ rest) = .ok p) →
        ∃ d, Directory.ofRoutines rs = .ok d ∧ ∀ q, Relation.ReflTransGen Becomes p q →
          q.routines.map (fun r => (r.name, r.body, r.registerCount)) =
            rs.map (fun r => (r.name, r.body, r.registerCount)) ∧ d.Exact q := by
  intro names bytes
  have phrase : Wire.Grammar.list Wire.Grammar.routine rs bytes :=
    (Wire.encodes_program { routines := rs }).phrase
      ⟨lengths, fun q named => Nat.lt_of_lt_of_le (registers q named) (Nat.sub_le _ 1)⟩
  have decodes (rest : List UInt8) (p : Program) : Wire.decode (bytes ++ rest) = .ok p ↔
      names.Nodup ∧ p = { routines := rs.map Routine.bare } := by
    rw [Wire.decode_routines phrase]
    split <;> simp [names, *, eq_comm]
  have rejects (rest : List UInt8) (d : Wire.Defect) : Wire.decode (bytes ++ rest) = .error d ↔
      ¬names.Nodup ∧ d = .rejected := by
    rw [Wire.decode_routines phrase]
    split <;> simp [names, *, eq_comm]
  refine ⟨Directory.program_ofRoutines rs, fun p => ofRoutines_eq_ok_iff,
    fun e => ofRoutines_eq_error_iff, decodes, rejects,
    fun r member => ⟨?_, r.registerCount_lt⟩, fun p made => ?_⟩
  · exact Routine.isLeast_registerCount fun q named =>
      registers q (List.mem_flatMap.mpr ⟨r, member, named⟩)
  obtain ⟨distinct, same⟩ : names.Nodup ∧ p.routines.map Routine.bare = rs.map Routine.bare := by
    obtain built | ⟨rest, decoded⟩ := made
    · obtain ⟨distinct, rfl⟩ := ofRoutines_eq_ok_iff.mp built
      exact ⟨distinct, rfl⟩
    · obtain ⟨distinct, rfl⟩ := (decodes rest p).mp decoded
      refine ⟨distinct, ?_⟩
      rw [List.map_map]
      rfl
  have written := Directory.ofRoutines_eq_ok_iff.mpr ⟨distinct, rfl⟩
  refine ⟨_, written, fun q later => ?_⟩
  obtain ⟨code, stays⟩ := Directory.exact_later written same later
  have seen := congrArg (List.map fun r : Routine => (r.name, r.body, r.registerCount)) code
  rw [List.map_map, List.map_map] at seen
  exact ⟨seen, stays⟩

theorem Program.names_and_registers_of_three :
    let highest : Instruction := { opcode := "long-val", output := some 18446744073709551614 }
    let rs : List Routine := [⟨"main", [highest, { opcode := "co-yield", inputs := [5, 0] }], {}⟩,
      ⟨"", [], {}⟩, ⟨"é", [{ opcode := "debug-print", inputs := [2] }], {}⟩]
    let more := rs ++ [⟨"é", [], {}⟩, ⟨"main", [], {}⟩]
    let labels (r : Routine) : Routine := { r with notes := ⟨[(Opcodes.labelKey, .labels [])]⟩ }
    let q : Program := { routines := rs.map labels }
    ofRoutines more = .error (.duplicateRoutine "é") ∧
      Wire.decode (Wire.list Wire.routine more) = .error .rejected ∧
      rs.map Routine.registerCount = [18446744073709551615, 0, 3] ∧
      IsLeast { c | rs[0].Suffices c } 18446744073709551615 ∧
      (Machine.standard 9).prepare ⟨{ routines := rs }, []⟩ = .ok () ⟨q, []⟩ ∧
      (Machine.standard 9).prepare ⟨q, []⟩ = .error (.duplicateNote Opcodes.labelKey) ⟨q, []⟩ ∧
      Directory.ofRoutines rs = .ok [("é", 2), ("", 1), ("main", 0)] ∧
      Directory.Exact [("é", 2), ("", 1), ("main", 0)] q ∧ q.get "é" = .ok (labels rs[2]) := by
  intro highest rs more labels q
  obtain ⟨-, -, refused, -, rejected, -, -⟩ :=
    names_and_registers more (by decide +kernel) (by decide +kernel)
  obtain ⟨-, built, -, -, -, least, made⟩ :=
    names_and_registers rs (by decide +kernel) (by decide +kernel)
  have first : (Machine.standard 9).prepare ⟨{ routines := rs }, []⟩ = .ok () ⟨q, []⟩ := rfl
  have second : (Machine.standard 9).prepare ⟨q, []⟩ =
      .error (.duplicateNote Opcodes.labelKey) ⟨q, []⟩ := rfl
  have counts : rs.map Routine.registerCount = [18446744073709551615, 0, 3] := by decide +kernel
  obtain ⟨d, written, later⟩ :=
    made { routines := rs } (.inl ((built _).mpr ⟨by decide +kernel, rfl⟩))
  obtain rfl : d = [("é", 2), ("", 1), ("main", 0)] := Except.ok.inj (written.symm.trans rfl)
  have becomes : Relation.ReflTransGen Becomes { routines := rs } q :=
    .tail (.single ⟨_, _, _, rfl, rfl, .inl first⟩) ⟨_, _, _, rfl, rfl, .inr ⟨_, second⟩⟩
  obtain ⟨-, stays⟩ := later q becomes
  refine ⟨(refused _).mpr ⟨["main", "", "é"], "é", ["main"], rfl, by decide, by decide, rfl⟩, ?_,
    counts, ?_, first, second, written, stays, (stays.got _ _).mpr ⟨?_, rfl⟩⟩
  · have again := (rejected [] .rejected).mpr ⟨by decide, rfl⟩
    rwa [List.append_nil] at again
  · exact (least rs[0] (List.mem_cons_self ..)).1
  · exact List.mem_map_of_mem (by simp [rs])

end RegisterMachine
