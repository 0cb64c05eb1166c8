import Pipeline.Proofs.Execution.Knots
import Pipeline.Proofs.Session.Limits

/-!
# Lists in runs

Every run starts without lists.  Its lists stay finite, and with them all that is printed, joined or
compared, exactly if no body of a loop gives back a value that reaches the list of the loop.  Nothing
keeps a body from this: lists are shared, and a body may read a variable that holds the list.

* `lists_finite_iff` : when the lists of a run are finite.
* `exists_knot` : a program of which a list is not.
-/

namespace Pipeline.Session

open Machine

section

variable {files : FileSystem} {traced : Bool} {source : Source} {session : Session}

theorem acyclic_start (nodes : List Node) :
    (Machine.start nodes .nothing (fresh nodes)).env.store.Acyclic :=
  Store.acyclic_empty

/-- No list contains itself in a run exactly if the run ties no knot. -/
theorem acyclic_visited_iff :
    (∀ m, session.Visits files traced source m → m.env.store.Acyclic) ↔
      ∀ m, session.Visits files traced source m → ¬m.TiesKnot := by
  constructor
  · rintro hall m ⟨nodes, calls, hload, htakes⟩
    refine (acyclic_iff (acyclic_start nodes)).1 ?_ calls m htakes
    exact fun part reached hpart => hall reached ⟨nodes, part, hload, hpart⟩
  · rintro hknots m ⟨nodes, calls, hload, htakes⟩
    refine (acyclic_iff (acyclic_start nodes)).2 ?_ calls m htakes
    exact fun part reached hpart => hknots reached ⟨nodes, part, hload, hpart⟩

/-- What a run leaves has finite lists if its states have. -/
theorem acyclic_of_runSource (hfresh : session.environment = none)
    (h : ∀ m, session.Visits files traced source m → m.env.store.Acyclic) {env : Environment}
    (henv : (session.runSource files traced source).2.environment = some env) : env.store.Acyclic := by
  rcases endsIn_or_load_error files traced session source with ⟨last, hlast⟩ | ⟨fault, -, -, hkept⟩
  · obtain ⟨journal, rfl⟩ := hlast.exists_eq henv
    exact h last hlast.visited
  · cases henv.symm.trans (hkept.trans hfresh)

end

/-- **The lists of a run are finite exactly if the run ties no knot.**  A step from a state in which no
list contains itself leads to one in which a list does exactly if a loop is about to make a value an
element of its list that reaches this list.  In all states before, every value can be rendered or has a
number that is too long, and any two values can be compared.  The last state has the result and the
environment of the run: so what a run leaves has finite lists if the run ties no knot. -/
theorem lists_finite_iff (settings : Settings) (files : FileSystem) (traced : Bool)
    (source : Source) :
    let session := Session.start settings .standard
    let setup := session.setup files traced
    let ran := session.runSource files traced source
    (∀ nodes, (session.load files source).1 = .ok nodes →
        ∃ last, session.EndsIn files traced source last) ∧
      ((∀ m, session.Visits files traced source m → ¬m.TiesKnot) →
        ∀ env, ran.2.environment = some env → env.store.Acyclic) ∧
      ((∀ m, session.Visits files traced source m → m.env.store.Acyclic) ↔
        ∀ m, session.Visits files traced source m → ¬m.TiesKnot) ∧
      (∀ m next, session.Visits files traced source m → m.env.store.Acyclic →
        m.step? setup = some next → (next.env.store.Acyclic ↔ ¬m.TiesKnot)) ∧
      ∀ m, session.Visits files traced source m → m.env.store.Acyclic → ∀ x y,
        m.env.store.render x ≠ .error .endless ∧ ∃ result, m.env.store.same x y = .ok result := by
  intro session setup ran
  refine ⟨fun nodes => exists_endsIn traced, ?_, acyclic_visited_iff, ?_, ?_⟩
  · intro hknots env henv
    exact acyclic_of_runSource rfl (acyclic_visited_iff.2 hknots) henv
  · intro m next _ hacyclic hstep
    exact acyclic_step_iff hacyclic hstep
  · intro m _ hacyclic x y
    exact ⟨hacyclic.render_ne_endless x, hacyclic.exists_same x y⟩

/-! ### A list that becomes its own element -/

/-- A loop over the list in a variable, with a body that gives the variable back. -/
def knot : String :=
  "set \"a\"\nsplit \"\"\nstore $x\nforeach\nset $x\nend"

/-- The nodes of this loop. -/
def knotNodes : List Node :=
  [.simple ⟨1, "set", [.operand ⟨.string, "a"⟩]⟩, .simple ⟨2, "split", [.operand ⟨.string, ""⟩]⟩,
    .simple ⟨3, "store", [.operand ⟨.variable, "x"⟩]⟩,
    .block ⟨4, "foreach", []⟩ [.simple ⟨5, "set", [.operand ⟨.variable, "x"⟩]⟩]]

theorem load_knot (files : FileSystem) :
    ((Session.start {} .standard).load files (.text knot)).1 = .ok knotNodes := by
  have hlines : Statement.readLines {} (Text.lines knot.toList) =
      .ok [⟨1, "set", [.operand ⟨.string, "a"⟩]⟩, ⟨2, "split", [.operand ⟨.string, ""⟩]⟩,
        ⟨3, "store", [.operand ⟨.variable, "x"⟩]⟩, ⟨4, "foreach", []⟩,
        ⟨5, "set", [.operand ⟨.variable, "x"⟩]⟩, ⟨6, "end", []⟩] := by decide +kernel
  have hbody : Program.WellFormed {} false [.simple ⟨5, "set", [.operand ⟨.variable, "x"⟩]⟩] :=
    .simple rfl (by decide) (.nil _)
  have hwf : Program.WellFormed {} false knotNodes := by
    refine .simple rfl (by decide) (.simple rfl (by decide) (.simple rfl (by decide) ?_))
    exact .block rfl (by decide) (fun h => absurd h (by decide)) hbody (.nil _)
  have hsettings : (Session.start {} .standard).settings = {} := settings_start_standard rfl
  refine fst_load_text (hsettings ▸ hlines) ?_
  rw [hsettings]
  exact Program.build_of_wellFormed Program.hasBranches_default hwf (by decide) (by decide)

/-- The body of the loop has run after fifteen steps: it gives back the list of the loop. -/
theorem exists_visits_knot (files : FileSystem) :
    ∃ m body tasks, (Session.start {} .standard).Visits files false (.text knot) m ∧
      m.control = .result (.ok (.list 0)) ∧ m.tasks = .element body 0 0 :: tasks ∧
      m.env.store = ⟨#[#[.string "a"]]⟩ ∧ m.env.bindings.find? "x" = some (.list 0) := by
  have hafter : (Machine.start knotNodes .nothing (fresh knotNodes)).after?
      ((Session.start {} .standard).setup files false) 15 = some _ := rfl
  exact ⟨_, _, _, visits_of_after? (load_knot files) hafter, rfl, rfl, rfl, rfl⟩

/-- Right before the knot is tied no list contains itself, and every value can be rendered. -/
theorem lists_finite_iff_knot :
    let files : FileSystem := fun _ => .error .missing
    let session := Session.start {} .standard
    (∃ m, session.Visits files false (.text knot) m ∧ m.TiesKnot ∧ m.env.store.Acyclic ∧
      m.env.store.render (.list 0) ≠ .error .endless ∧
      ∃ next, m.step? (session.setup files false) = some next ∧ ¬next.env.store.Acyclic) ∧
    (¬∀ m, session.Visits files false (.text knot) m → m.env.store.Acyclic) ∧
    ∃ last, session.EndsIn files false (.text knot) last := by
  intro files session
  obtain ⟨hends, -, hall, hstep, hfinite⟩ := lists_finite_iff {} files false (.text knot)
  obtain ⟨m, body, tasks, hvisits, hcontrol, htasks, hstore, -⟩ := exists_visits_knot files
  have hsize : 0 < (m.env.store.elements 0).size := by rw [hstore]; exact Nat.zero_lt_one
  have hknot : m.TiesKnot := ⟨.list 0, body, 0, 0, tasks, hcontrol, htasks, hsize, .refl⟩
  have hacyclic : m.env.store.Acyclic := by
    have hflat : Store.Flat #[.string "a"] := by simp [Store.Flat]
    rw [hstore]
    exact Store.acyclic_empty.alloc hflat
  have hrender := (hfinite m hvisits hacyclic (.list 0) .nothing).1
  obtain ⟨next, hnext, -⟩ : ∃ next, m.step? (session.setup files false) = some next ∧ _ :=
    not_acyclic_of_tiesKnot hknot
  have hcyclic : ¬next.env.store.Acyclic := by
    rw [hstep m next hvisits hacyclic hnext]
    exact not_not_intro hknot
  refine ⟨⟨m, hvisits, hknot, hacyclic, hrender, next, hnext, hcyclic⟩, fun hacyclics => ?_,
    hends knotNodes (load_knot files)⟩
  exact hall.1 hacyclics m hvisits hknot

/-- After it the list in the variable is its own element, and has no text.  The run goes on to its end, and
this list is its result. -/
theorem exists_knot :
    let files : FileSystem := fun _ => .error .missing
    let session := Session.start {} .standard
    let ran := session.runSource files false (.text knot)
    (∃ m, session.Visits files false (.text knot) m ∧ ¬m.env.store.Acyclic ∧
      m.env.bindings.find? "x" = some (.list 0) ∧ m.env.store.elements 0 = #[.list 0] ∧
      m.env.store.render (.list 0) = .error .endless) ∧
    ran.1 = .ok (.list 0) ∧
    ∃ env, ran.2.environment = some env ∧ env.store.elements 0 = #[.list 0] := by
  intro files session ran
  obtain ⟨m, body, tasks, hvisits, hcontrol, htasks, hstore, hvariable⟩ := exists_visits_knot files
  obtain ⟨next, hstep, hwritten, hbindings⟩ := step?_element hcontrol htasks
  rw [hstore] at hwritten
  have hself : next.env.store.elements 0 = #[.list 0] := by rw [hwritten]; rfl
  have hcyclic : ¬next.env.store.Acyclic := by
    intro hacyclic
    have hholds : next.env.store.Holds (.list 0) (.list 0) := ⟨0, rfl, by simp [hself]⟩
    exact hacyclic 0 (.single hholds)
  have hbound : next.env.bindings.find? "x" = some (.list 0) := by rw [hbindings, hvariable]
  have hrender : next.env.store.render (.list 0) = .error .endless := by
    rw [hwritten]
    decide +kernel
  obtain ⟨hresult, journal, hleft⟩ := runSource_of_load false (load_knot files)
  have hresult : ran.1 = .ok (.list 0) := hresult.trans rfl
  exact ⟨⟨next, hvisits.step hstep, hcyclic, hbound, hself, hrender⟩, hresult, _, hleft, rfl⟩

end Pipeline.Session
