import Mathlib.Logic.Relation
import RegisterMachine.Run.Rendering

/-!
The text of a value, whatever contains what. A value is written out with all that it holds, and a
container is replaced by its mark where it stands inside itself; whether it does is told by the
containers around that place alone. The fuel of the renderer never runs out, since a path repeats no
container; a list of containers in progress that is handed from place to place comes back from each
of them as it was; and where nothing contains itself no mark is made.
-/

namespace RegisterMachine

def Value.container? : Value → Option Container
  | .array id => some (.array id)
  | .object id => some (.object id)
  | .unset | .int _ | .long _ | .double _ | .bool _ | .coroutine _ => none

namespace Container

variable (h : Heap)

def mark : Container → String
  | array _ => "[...]"
  | object id => (h.object id).shape.name ++ "\x7b...\x7d"

/-- The values that are written out for it. -/
def contents : Container → List Value
  | array id => (h.elements id).toList
  | object id => ((h.object id).shape.fields.zip (h.object id).cells.toList).map Prod.snd

def assemble : Container → List String → String
  | array _, texts => "[" ++ ", ".intercalate texts ++ "]"
  | object id, texts =>
    let named := (h.object id).shape.fields.zipWith (fun field text => field ++ "=" ++ text) texts
    (h.object id).shape.name ++ "\x7b" ++ ", ".intercalate named ++ "\x7d"

end Container

namespace Heap

section Texts

variable (h : Heap)

def leaf : Value → String
  | .int v => toString v.toInt
  | .long v => toString v.toInt
  | .double v => v.text
  | .bool v => toString v
  | .coroutine id => "<coroutine " ++ (h.coroutine id).name ++ ">"
  | .unset | .array _ | .object _ => "unset"

/-- The text of a value inside the containers of the path: a container is marked if it is on the
path, and written out otherwise. -/
inductive Shows : List Container → Value → String → Prop where
  | leaf {path v} (simple : v.container? = none) : Shows path v (h.leaf v)
  | marked {path v c} (holds : v.container? = some c) (inside : c ∈ path) :
      Shows path v (c.mark h)
  | expanded {path v c} {g : Value → String} (holds : v.container? = some c)
      (outside : c ∉ path) (inner : ∀ w ∈ c.contents h, Shows (c :: path) w (g w)) :
      Shows path v (c.assemble h ((c.contents h).map g))

/-- The text of a value that has no marks in it: every container is written out. -/
inductive Plain : Value → String → Prop where
  | leaf {v} (simple : v.container? = none) : Plain v (h.leaf v)
  | expanded {v c} {g : Value → String} (holds : v.container? = some c)
      (inner : ∀ w ∈ c.contents h, Plain w (g w)) :
      Plain v (c.assemble h ((c.contents h).map g))

mutual

/-- Writing a value with a list of the containers in progress: one that is listed is marked, another
is put on the list, written out and taken off again. -/
inductive Writes : List Container → Value → String → List Container → Prop where
  | leaf {listed v} (simple : v.container? = none) : Writes listed v (h.leaf v) listed
  | marked {listed v c} (holds : v.container? = some c) (inside : c ∈ listed) :
      Writes listed v (c.mark h) listed
  | expanded {listed v c texts left} (holds : v.container? = some c) (outside : c ∉ listed)
      (inner : WritesAll (c :: listed) (c.contents h) texts left) :
      Writes listed v (c.assemble h texts) left.tail

inductive WritesAll : List Container → List Value → List String → List Container → Prop where
  | nil {listed} : WritesAll listed [] [] listed
  | cons {listed v vs text texts next left} (first : Writes listed v text next)
      (others : WritesAll next vs texts left) :
      WritesAll listed (v :: vs) (text :: texts) left

end

def Holds (c d : Container) : Prop := ∃ v ∈ c.contents h, v.container? = some d

/-- From the value one gets to a container that contains itself. -/
def Circular (v : Value) : Prop :=
  ∃ c d, v.container? = some c ∧ Relation.ReflTransGen h.Holds c d ∧ Relation.TransGen h.Holds d d

def everyContainer : List Container :=
  (List.range h.arrays.size).map .array ++ (List.range h.objects.size).map .object

/-- How many of them are not on the path. -/
def unopened (path : List Container) : Nat := (h.everyContainer.filter (· ∉ path)).length

def expansion (path : List Container) (v : Value) : String :=
  h.renderWithin (h.unopened path + 1) path v

end Texts

section Renderer

variable {h : Heap} {v : Value} {c : Container} {path : List Container}

theorem renderWithin_leaf (simple : v.container? = none) (fuel : Nat) (path : List Container) :
    h.renderWithin fuel path v = h.leaf v := by
  cases v <;> first | (cases simple; done) | simp only [renderWithin, leaf]

theorem zipWith_map_zip {α β γ δ : Type} (join : α → γ → δ) (g : β → γ) (xs : List α)
    (ys : List β) : xs.zipWith join (((xs.zip ys).map Prod.snd).map g) =
      (xs.zip ys).map fun pair => join pair.1 (g pair.2) := by
  induction xs generalizing ys with
  | nil => rfl
  | cons x xs ih =>
    cases ys with
    | nil => rfl
    | cons y ys => simp only [List.zip_cons_cons, List.map_cons, List.zipWith_cons_cons, ih]

theorem renderWithin_container (holds : v.container? = some c) (fuel : Nat)
    (path : List Container) :
    h.renderWithin (fuel + 1) path v = if c ∈ path then c.mark h
      else c.assemble h ((c.contents h).map (h.renderWithin fuel (c :: path))) := by
  cases v with
  | array id =>
    obtain rfl := Option.some.inj holds
    simp only [renderWithin, Container.mark, Container.assemble, Container.contents]
  | object id =>
    obtain rfl := Option.some.inj holds
    simp only [renderWithin, Container.mark, Container.assemble, Container.contents,
      zipWith_map_zip]
  | unset | int | long | double | bool | coroutine => cases holds

theorem contents_of_absent (absent : c ∉ h.everyContainer) : c.contents h = [] := by
  cases c with
  | array id =>
    have beyond : h.arrays.size ≤ id := by simpa [everyContainer] using absent
    simp [Container.contents, elements, beyond]
  | object id =>
    have beyond : h.objects.size ≤ id := by simpa [everyContainer] using absent
    have nothing : h.object id = default := by simp [object, beyond]
    rw [Container.contents, nothing]
    rfl

theorem unopened_lt (present : c ∈ h.everyContainer) (outside : c ∉ path) :
    h.unopened (c :: path) < h.unopened path := by
  have fewer : h.everyContainer.filter (· ∉ c :: path) =
      (h.everyContainer.filter (· ∉ path)).filter (· ≠ c) := by
    rw [List.filter_filter]
    refine List.filter_congr fun d _ => ?_
    simp [not_or]
  rw [unopened, fewer]
  refine List.length_filter_lt_length_iff_exists.mpr ⟨c, ?_, by simp⟩
  exact List.mem_filter.mpr ⟨present, by simpa using outside⟩

theorem unopened_nil : h.unopened [] = h.containers := by
  have all : h.everyContainer.filter (· ∉ []) = h.everyContainer :=
    List.filter_eq_self.mpr (by simp)
  rw [unopened, all]
  simp [everyContainer, containers]

/-- With more fuel than there are containers left to open, a container is never marked for want of
fuel. -/
theorem shows_renderWithin {fuel : Nat} (enough : h.unopened path < fuel) (v : Value) :
    h.Shows path v (h.renderWithin fuel path v) := by
  -- Each container that is opened uses up one of fuel and one of those that are left.
  induction fuel generalizing path v with
  | zero => exact absurd enough (Nat.not_lt_zero _)
  | succ fuel ih =>
    cases holds : v.container? with
    | none =>
      rw [renderWithin_leaf holds]
      exact .leaf holds
    | some c =>
      rw [renderWithin_container holds]
      split
      · next inside => exact .marked holds inside
      · next outside =>
        refine .expanded holds outside fun w member => ih ?_ w
        have present : c ∈ h.everyContainer := Classical.byContradiction fun absent => by
          rw [contents_of_absent absent] at member
          cases member
        have fewer := unopened_lt present outside
        omega

end Renderer

section Unique

variable {h : Heap} {v : Value} {c : Container} {path left : List Container} {text text' : String}

theorem Shows.unique (shown : h.Shows path v text) (also : h.Shows path v text') :
    text = text' := by
  induction shown generalizing text' with
  | leaf simple =>
    cases also with
    | leaf => rfl
    | marked holds | expanded holds => exact nomatch simple.symm.trans holds
  | marked holds inside =>
    cases also with
    | leaf simple => exact nomatch simple.symm.trans holds
    | marked holds' =>
      obtain rfl := Option.some.inj (holds.symm.trans holds')
      rfl
    | expanded holds' outside =>
      obtain rfl := Option.some.inj (holds.symm.trans holds')
      exact absurd inside outside
  | expanded holds outside inner ih =>
    cases also with
    | leaf simple => exact nomatch simple.symm.trans holds
    | marked holds' inside =>
      obtain rfl := Option.some.inj (holds.symm.trans holds')
      exact absurd inside outside
    | expanded holds' outside' inner' =>
      obtain rfl := Option.some.inj (holds.symm.trans holds')
      exact congrArg (Container.assemble h _) (List.map_congr_left fun w member =>
        ih w member (inner' w member))

theorem shows_expansion (h : Heap) (path : List Container) (v : Value) :
    h.Shows path v (h.expansion path v) := shows_renderWithin (Nat.lt_succ_self _) v

theorem shows_iff : h.Shows path v text ↔ text = h.expansion path v := by
  constructor
  · exact fun shown => shown.unique (h.shows_expansion path v)
  · rintro rfl
    exact h.shows_expansion path v

theorem render_eq (h : Heap) (v : Value) : h.render v = h.expansion [] v := by
  rw [render, expansion, unopened_nil]

theorem Plain.unique (plain : h.Plain v text) (also : h.Plain v text') : text = text' := by
  induction plain generalizing text' with
  | leaf simple =>
    cases also with
    | leaf => rfl
    | expanded holds => exact nomatch simple.symm.trans holds
  | expanded holds inner ih =>
    cases also with
    | leaf simple => exact nomatch simple.symm.trans holds
    | expanded holds' inner' =>
      obtain rfl := Option.some.inj (holds.symm.trans holds')
      exact congrArg (Container.assemble h _) (List.map_congr_left fun w member =>
        ih w member (inner' w member))

end Unique

section Listing

variable {h : Heap}

mutual

theorem Writes.balanced : ∀ {v : Value} {listed left : List Container} {text : String},
    h.Writes listed v text left → text = h.expansion listed v ∧ left = listed
  | _, _, _, _, .leaf simple => ⟨shows_iff.mp (.leaf simple), rfl⟩
  | _, _, _, _, .marked holds inside => ⟨shows_iff.mp (.marked holds inside), rfl⟩
  | _, _, _, _, .expanded holds outside inner => by
    obtain ⟨same, back⟩ := inner.balanced
    rw [same, back]
    exact ⟨shows_iff.mp (.expanded holds outside fun w _ => h.shows_expansion _ w), rfl⟩

theorem WritesAll.balanced : ∀ {vs : List Value} {listed left : List Container}
    {texts : List String}, h.WritesAll listed vs texts left →
      texts = vs.map (h.expansion listed) ∧ left = listed
  | _, _, _, _, .nil => ⟨rfl, rfl⟩
  | _, _, _, _, .cons first others => by
    obtain ⟨same, back⟩ := first.balanced
    obtain ⟨sames, restored⟩ := others.balanced
    rw [restored, same, sames, back]
    exact ⟨rfl, rfl⟩

end

variable {v : Value} {vs : List Value} {listed left : List Container} {text : String}

theorem writesAll_map {g : Value → String} (each : ∀ w ∈ vs, h.Writes listed w (g w) listed) :
    h.WritesAll listed vs (vs.map g) listed := by
  induction vs with
  | nil => exact .nil
  | cons v vs ih =>
    obtain ⟨first, others⟩ := List.forall_mem_cons.mp each
    exact .cons first (ih others)

theorem Shows.writes (shown : h.Shows listed v text) : h.Writes listed v text listed := by
  induction shown with
  | leaf simple => exact .leaf simple
  | marked holds inside => exact .marked holds inside
  | expanded holds outside inner ih => exact .expanded holds outside (writesAll_map ih)

theorem writes_iff : h.Writes listed v text left ↔ h.Shows listed v text ∧ left = listed := by
  constructor
  · intro writes
    obtain ⟨shown, same⟩ := writes.balanced
    exact ⟨shows_iff.mpr shown, same⟩
  · rintro ⟨shown, rfl⟩
    exact shown.writes

end Listing

section Cycles

variable {h : Heap} {v w : Value} {c : Container} {path : List Container} {text : String}

theorem Circular.of_content (holds : v.container? = some c) (member : w ∈ c.contents h)
    (circular : h.Circular w) : h.Circular v := by
  obtain ⟨d, e, inner, reach, cycle⟩ := circular
  exact ⟨c, e, holds, reach.head ⟨w, member, inner⟩, cycle⟩

theorem Shows.plain (shown : h.Shows path v text) (straight : ¬h.Circular v)
    (around : ∀ c ∈ path, ∀ d, v.container? = some d → Relation.TransGen h.Holds c d) :
    h.Plain v text := by
  -- From every container on the path there is a way to the one in question.
  induction shown with
  | leaf simple => exact .leaf simple
  | @marked path v c holds inside =>
    exact absurd ⟨c, c, holds, .refl, around c inside c holds⟩ straight
  | @expanded path v c g holds outside inner ih =>
    refine .expanded holds fun w member => ih w member (mt (.of_content holds member) straight) ?_
    intro e above d inside
    have last : h.Holds c d := ⟨w, member, inside⟩
    obtain rfl | above := List.mem_cons.mp above
    · exact .single last
    · exact (around e above c holds).tail last

theorem Plain.straight (plain : h.Plain v text) : ¬h.Circular v := by
  induction plain with
  | leaf simple =>
    rintro ⟨c, d, holds, -, -⟩
    exact nomatch simple.symm.trans holds
  | expanded holds inner ih =>
    rintro ⟨c, d, holds', reach, cycle⟩
    obtain rfl := Option.some.inj (holds.symm.trans holds')
    obtain rfl | ⟨e, ⟨w, member, inside⟩, onward⟩ := reach.cases_head
    · obtain ⟨e, ⟨w, member, inside⟩, onward⟩ := Relation.TransGen.head'_iff.mp cycle
      exact ih w member ⟨e, _, inside, onward, cycle⟩
    · exact ih w member ⟨e, d, inside, onward, cycle⟩

theorem plain_of_straight (straight : ¬h.Circular v) : h.Plain v (h.render v) :=
  h.render_eq v ▸ (h.shows_expansion [] v).plain straight fun _ member => nomatch member

end Cycles

section Coroutines

variable {h : Heap} {coroutines : Array Coroutine}

theorem renderWithin_named
    (named : ∀ id, ({ h with coroutines }.coroutine id).name = (h.coroutine id).name) (fuel : Nat)
    (path : List Container) (v : Value) :
    { h with coroutines }.renderWithin fuel path v = h.renderWithin fuel path v := by
  induction fuel generalizing path v with
  | zero =>
    cases v with
    | coroutine id => simp only [renderWithin, named]
    | unset | int | long | double | bool | array | object => rfl
  | succ fuel ih =>
    cases holds : v.container? with
    | none =>
      rw [renderWithin_leaf holds, renderWithin_leaf holds]
      cases v with
      | coroutine id => simp only [leaf, named]
      | unset | int | long | double | bool | array | object => rfl
    | some c =>
      have inner := funext (ih (c :: path))
      rw [renderWithin_container holds, renderWithin_container holds, inner]
      cases c <;> rfl

theorem render_park (h : Heap) (id : CoroutineId) (parked : Option Frame) (v : Value) :
    (h.park id parked).render v = h.render v := by
  refine renderWithin_named (fun other => ?_) _ _ _
  simp only [coroutine, Array.getElem?_modify]
  split
  · cases h.coroutines[other]? <;> rfl
  · rfl

end Coroutines

/-- Writing a value ends, with the text that marks a container exactly where it stands inside
itself. The value can be written without marks if and only if nothing that it contains contains
itself, and of a coroutine only the name is shown. -/
theorem rendering (h : Heap) (v : Value) :
    (∀ text, h.render v = text ↔ h.Shows [] v text) ∧
      (∀ listed, ∃ text, h.Shows listed v text ∧
        ∀ written left, h.Writes listed v written left ↔ written = text ∧ left = listed) ∧
      ((∃ text, h.Plain v text) ↔ ¬h.Circular v) ∧
      (∀ text, h.Plain v text → h.render v = text) ∧
      (∀ id, h.render (.coroutine id) = "<coroutine " ++ (h.coroutine id).name ++ ">") ∧
      ∀ id parked, (h.park id parked).render v = h.render v := by
  refine ⟨fun text => ?_, fun listed => ?_, ?_, fun text plain => ?_, fun id => ?_,
    fun id parked => h.render_park id parked v⟩
  · rw [render_eq, shows_iff, eq_comm]
  · refine ⟨h.expansion listed v, h.shows_expansion listed v, fun written left => ?_⟩
    rw [writes_iff, shows_iff]
  · constructor
    · rintro ⟨text, plain⟩
      exact plain.straight
    · exact fun straight => ⟨_, plain_of_straight straight⟩
  · exact (plain_of_straight plain.straight).unique plain
  · exact renderWithin_leaf rfl _ _

def tangled : Heap where
  arrays := #[#[.array 1, .array 1], #[.int 1], #[.object 0]]
  objects := #[⟨⟨"Box", ["items"]⟩, #[.array 2]⟩]

theorem tangled_rendering :
    ¬tangled.Circular (.array 0) ∧ tangled.render (.array 0) = "[[1], [1]]" ∧
      tangled.Circular (.array 2) ∧ tangled.Shows [] (.array 2) "[Box{items=[...]}]" := by
  have shared : tangled.Plain (.array 0) "[[1], [1]]" := by
    have one : tangled.Plain (.array 1) "[1]" :=
      .expanded (c := .array 1) (g := fun _ => "1") rfl fun w member => by
        obtain rfl := List.mem_singleton.mp member
        exact .leaf rfl
    exact .expanded (c := .array 0) (g := fun _ => "[1]") rfl fun w member => by
      obtain rfl : w = .array 1 := by simpa [Container.contents, tangled, elements] using member
      exact one
  have box : tangled.Holds (.array 2) (.object 0) := ⟨.object 0, by decide, rfl⟩
  have items : tangled.Holds (.object 0) (.array 2) := ⟨.array 2, by decide, rfl⟩
  obtain ⟨-, -, straight, plain, -⟩ := tangled.rendering (.array 0)
  obtain ⟨shows_, -⟩ := tangled.rendering (.array 2)
  exact ⟨straight.mp ⟨_, shared⟩, plain _ shared,
    ⟨_, _, rfl, .refl, .tail (.single box) items⟩, (shows_ _).mp (by decide +kernel)⟩

end Heap

end RegisterMachine
