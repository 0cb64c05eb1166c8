import Pipeline.Proofs.Execution.Lists

/-!
# Knots

A run that starts with no list that contains itself gets to one by one kind of step only, which ties a
knot: the body of a loop has given a value that reaches the list of the loop, and this value becomes an
element of the list.

* `Machine.acyclic_step` : a step that ties no knot.
* `Machine.not_acyclic_of_tiesKnot` : a step that ties one.
* `Machine.acyclic_iff` : a whole run.
-/

namespace Pipeline.Machine

variable {setup : Setup} {m next last : Machine}

/-- The next step ties a knot: it makes a list an element of itself, or puts it below one of its
elements. -/
def TiesKnot (m : Machine) : Prop :=
  ∃ value body address index tasks, m.control = .result (.ok value) ∧
    m.tasks = .element body address index :: tasks ∧
    index < (m.env.store.elements address).size ∧ m.env.store.Reaches value (.list address)

/-- A step that ties no knot makes no list contain itself. -/
theorem acyclic_step (h : m.env.store.Acyclic) (hstep : m.step? setup = some next)
    (hknot : ¬m.TiesKnot) : next.env.store.Acyclic := by
  have htouches := touches_of_step hstep
  generalize next.env.store = store at htouches ⊢
  cases htouches with
  | grows hgrows =>
    cases hgrows with
    | same => exact h
    | added hflat => exact h.alloc hflat
  | @writes value body address index tasks hcontrol htasks =>
    rcases Nat.lt_or_ge index (m.env.store.elements address).size with hindex | hindex
    · refine h.write fun hreaches => ?_
      exact hknot ⟨value, body, address, index, tasks, hcontrol, htasks, hindex, hreaches⟩
    · exact h.write_of_size_le hindex

/-- The result of a body becomes the element that the body was run for. -/
theorem step?_element {value : Value} {body : Option (List Node)} {address index : Nat}
    {tasks : List Task} (hcontrol : m.control = .result (.ok value))
    (htasks : m.tasks = .element body address index :: tasks) :
    ∃ next, m.step? setup = some next ∧
      next.env.store = m.env.store.write address index value ∧
      next.env.bindings = m.env.bindings := by
  obtain ⟨control, rest, env⟩ := m
  obtain rfl : control = .result (.ok value) := hcontrol
  obtain rfl : rest = .element body address index :: tasks := htasks
  refine ⟨_, rfl, store_nextElement address (index + 1), ?_⟩
  simp only [resume, nextElement]
  split
  · rfl
  · cases body <;> rfl

/-- A machine that ties a knot goes on, with a list that contains itself. -/
theorem not_acyclic_of_tiesKnot (hknot : m.TiesKnot) :
    ∃ next, m.step? setup = some next ∧ ¬next.env.store.Acyclic := by
  obtain ⟨value, body, address, index, tasks, hcontrol, htasks, hindex, hreaches⟩ := hknot
  obtain ⟨next, hstep, hstore, -⟩ := step?_element hcontrol htasks
  refine ⟨next, hstep, ?_⟩
  rw [hstore]
  exact Store.not_acyclic_write hindex hreaches

/-- A step makes a list contain itself exactly if it ties a knot. -/
theorem acyclic_step_iff (h : m.env.store.Acyclic) (hstep : m.step? setup = some next) :
    next.env.store.Acyclic ↔ ¬m.TiesKnot := by
  refine ⟨fun hnext hknot => ?_, acyclic_step h hstep⟩
  obtain ⟨next', hstep', hcyclic⟩ := not_acyclic_of_tiesKnot hknot
  obtain rfl := Option.some.inj (hstep.symm.trans hstep')
  exact hcyclic hnext

/-- Some steps that tie no knot make no list contain itself. -/
theorem acyclic_takes {calls : Nat} (h : m.env.store.Acyclic) (htakes : Takes setup calls m last)
    (hknots : ∀ part reached, Takes setup part m reached → ¬reached.TiesKnot) :
    last.env.store.Acyclic := by
  induction htakes with
  | refl => exact h
  | @step m next last calls hstep _ ih =>
    have hnext := acyclic_step h hstep (hknots 0 m (.refl m))
    exact ih hnext fun part reached hpart => hknots _ reached (.step hstep hpart)

/-- **No list contains itself in a run exactly if the run ties no knot.** -/
theorem acyclic_iff (h : m.env.store.Acyclic) :
    (∀ part reached, Takes setup part m reached → reached.env.store.Acyclic) ↔
      ∀ part reached, Takes setup part m reached → ¬reached.TiesKnot := by
  constructor
  · intro hall part reached hpart hknot
    obtain ⟨next, hstep, hcyclic⟩ := not_acyclic_of_tiesKnot hknot
    exact hcyclic (hall _ next (hpart.trans (.step hstep (.refl next))))
  · exact fun hknots part reached hpart => acyclic_takes h hpart hknots

end Pipeline.Machine
