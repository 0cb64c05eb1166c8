import Pipeline.Fault

/-!
# Where faults come from

A computation that may fail in several places fails in the first of them that does.  A fault of the
script that is put at a place keeps its cause.
-/

namespace Pipeline

section

variable {ε α β : Type} {x : Except ε α} {e : ε}

theorem eq_error_or_of_bind {f : α → Except ε β} (h : x >>= f = .error e) :
    x = .error e ∨ ∃ a, x = .ok a ∧ f a = .error e := by
  cases x with
  | error e' => exact .inl (congrArg Except.error (Except.error.inj h))
  | ok a => exact .inr ⟨a, rfl, h⟩

theorem exists_of_bind_eq_ok {f : α → Except ε β} {b : β} (h : x >>= f = .ok b) :
    ∃ a, x = .ok a ∧ f a = .ok b := by
  cases x with
  | error e' => cases h
  | ok a => exact ⟨a, rfl, h⟩

/-- Some computations in order fail as the first of them does that fails. -/
theorem exists_of_mapM_eq_error {f : α → Except ε β} {as : List α} (h : as.mapM f = .error e) :
    ∃ a ∈ as, f a = .error e := by
  induction as with
  | nil => cases h
  | cons a rest ih =>
    rw [List.mapM_cons] at h
    rcases eq_error_or_of_bind h with hfirst | ⟨b, -, h⟩
    · exact ⟨a, List.mem_cons_self, hfirst⟩
    · rcases eq_error_or_of_bind h with hrest | ⟨bs, -, hbs⟩
      · obtain ⟨other, hmem, hother⟩ := ih hrest
        exact ⟨other, List.mem_cons_of_mem _ hmem, hother⟩
      · cases hbs

theorem eq_error_of_map {f : α → β} (h : x.map f = .error e) : x = .error e := by
  cases x with
  | error e' => exact congrArg Except.error (Except.error.inj h)
  | ok a => cases h

theorem exists_of_map_eq_ok {f : α → β} {b : β} (h : x.map f = .ok b) :
    ∃ a, x = .ok a ∧ f a = b := by
  cases x with
  | error e' => cases h
  | ok a => exact ⟨a, rfl, Except.ok.inj h⟩

end

/-- A fault of the script on a line: the whole line or one of its arguments. -/
def Fault.OnLine (fault : Fault) (line : Int) : Prop :=
  ∃ cause argument, fault = .script cause ⟨some line, argument⟩

namespace Fault

theorem exists_of_isScript {fault : Fault} (h : fault.isScript = true) :
    ∃ cause place, fault = .script cause place := by
  cases fault with
  | script cause place => exact ⟨cause, place, rfl⟩
  | _ => cases h

theorem isScript_of_category? {fault : Fault} {category : Category}
    (h : fault.category? = some category) : fault.isScript = true := by
  cases fault with
  | script cause place => rfl
  | _ => cases h

theorem onLine_ofLine (cause : Cause) (line : Int) : (Fault.script cause (.ofLine line)).OnLine line :=
  ⟨cause, none, rfl⟩

/-- A fault of the script is on the line where it is put. -/
theorem onLine_locate {fault : Fault} (h : fault.isScript = true) {place : Place} {line : Int}
    (hplace : place.line = some line) : (fault.locate place).OnLine line := by
  obtain ⟨cause, inner, rfl⟩ := exists_of_isScript h
  obtain ⟨_, argument⟩ := place
  cases hplace
  exact ⟨cause, argument, rfl⟩

end Fault

theorem exists_of_locating_eq_error {α : Type} {place : Place} {x : Except Fault α} {fault : Fault}
    (h : locating place x = .error fault) : ∃ inner, x = .error inner ∧ fault = inner.locate place := by
  cases x with
  | error inner => exact ⟨inner, rfl, (Except.error.inj h).symm⟩
  | ok a => cases h

theorem eq_ok_of_locating {α : Type} {place : Place} {x : Except Fault α} {a : α}
    (h : locating place x = .ok a) : x = .ok a := by
  cases x with
  | error inner => cases h
  | ok b => exact congrArg Except.ok (Except.ok.inj h)

end Pipeline
