import Pipeline.Proofs.Program.Renumbering
import Pipeline.Settings

/-!
# Relaxed settings

Settings are relaxed by raising the two limits, by letting undefined variables be nothing, and by
giving a meaning to escapes that were refused.  What is read under relaxed settings is what was read
before, unless reading met a fault that the new settings lift; `Tracks` says so of a single result,
which may stand on lines with other numbers besides.
-/

namespace Pipeline

namespace Settings

/-- Other settings refuse no more than these do, and agree in all else. -/
structure Relaxes (s s' : Settings) : Prop where
  unknownEscape : s'.unknownEscape = s.unknownEscape ∨ s.unknownEscape = .reject
  strictVariables : s'.strictVariables = s.strictVariables ∨ s'.strictVariables = false
  terminator : s'.terminator = s.terminator
  blockCommands : s'.blockCommands = s.blockCommands
  maxDepth : s.maxDepth ≤ s'.maxDepth
  maxCallDepth : s.maxCallDepth ≤ s'.maxCallDepth

/-- A fault comes of a setting which other settings have changed. -/
def Lifts (s s' : Settings) : Fault → Prop
  | .script (.unknownEscape _) _ => s'.unknownEscape ≠ s.unknownEscape
  | .script (.blocksTooDeep _) _ => s'.maxDepth ≠ s.maxDepth
  | .script (.undefinedVariable _) _ => s'.strictVariables ≠ s.strictVariables
  | .script (.callsTooDeep _) _ => s'.maxCallDepth ≠ s.maxCallDepth
  | _ => False

theorem Relaxes.refl (s : Settings) : s.Relaxes s :=
  ⟨.inl rfl, .inl rfl, rfl, rfl, Nat.le_refl _, Nat.le_refl _⟩

variable {s s' : Settings}

theorem Relaxes.withBlockCommands (h : s.Relaxes s') (names : List String) :
    (s.withBlockCommands names).Relaxes (s'.withBlockCommands names) where
  unknownEscape := h.unknownEscape
  strictVariables := h.strictVariables
  terminator := h.terminator
  blockCommands := by rw [Settings.withBlockCommands, Settings.withBlockCommands, h.blockCommands]
  maxDepth := h.maxDepth
  maxCallDepth := h.maxCallDepth

/-- The same settings lift nothing. -/
theorem not_lifts_self (fault : Fault) : ¬s.Lifts s fault := by
  intro h
  unfold Lifts at h
  split at h <;> first | exact h rfl | exact h

/-- It does not matter where a fault is. -/
theorem lifts_locate {place : Place} {fault : Fault} :
    s.Lifts s' (fault.locate place) ↔ s.Lifts s' fault := by
  cases fault with
  | script cause _ => cases cause <;> exact Iff.rfl
  | _ => exact Iff.rfl

end Settings

/-! ### Results that track others -/

/-- A result is that of another computation, with the numbers of lines changed; or the other
computation met a fault which is lifted. -/
inductive Tracks (s s' : Settings) (f : Int → Int) {α β : Type} (V : α → β → Prop) :
    Except Fault α → Except Fault β → Prop where
  | ok {a : α} {b : β} : V a b → Tracks s s' f V (.ok a) (.ok b)
  | fault (fault : Fault) : Tracks s s' f V (.error fault) (.error (fault.renumber f))
  | lifted {fault : Fault} (x' : Except Fault β) : s.Lifts s' fault →
      Tracks s s' f V (.error fault) x'

namespace Tracks

variable {s s' : Settings} {f : Int → Int} {α β γ δ : Type} {V : α → β → Prop} {W : γ → δ → Prop}
  {x : Except Fault α} {x' : Except Fault β}

theorem bind {g : α → Except Fault γ} {g' : β → Except Fault δ} (h : Tracks s s' f V x x')
    (hg : ∀ a b, V a b → Tracks s s' f W (g a) (g' b)) :
    Tracks s s' f W (x >>= g) (x' >>= g') := by
  cases h with
  | ok hV => exact hg _ _ hV
  | fault fault => exact .fault fault
  | lifted x' h => exact .lifted _ h

theorem map {g : α → γ} {g' : β → δ} (h : Tracks s s' f V x x')
    (hg : ∀ a b, V a b → W (g a) (g' b)) : Tracks s s' f W (x.map g) (x'.map g') := by
  cases h with
  | ok hV => exact .ok (hg _ _ hV)
  | fault fault => exact .fault fault
  | lifted x' h => exact .lifted _ h

/-- A result whose fault has no place yet is put on a line, whatever number the line has. -/
theorem locating {g : Int → Int} (h : Tracks s s' g V x x') (place : Place) :
    Tracks s s' f V (locating place x) (locating (place.renumber f) x') := by
  cases h with
  | ok hV => exact .ok hV
  | fault fault =>
    show Tracks s s' f V (.error (fault.locate place)) _
    have htracks : Tracks s s' f V (.error (fault.locate place)) _ := .fault _
    rw [Fault.renumber_locate f g] at htracks
    exact htracks
  | lifted x' h => exact .lifted _ (Settings.lifts_locate.2 h)

/-- A computation that no setting has a part in tracks itself. -/
theorem refl (x : Except Fault α) : Tracks s s' id Eq x x := by
  cases x with
  | ok a => exact .ok rfl
  | error fault =>
    have htracks : Tracks s s' id Eq (.error fault : Except Fault α) _ := .fault fault
    rwa [Fault.renumber_id] at htracks

/-- A result tracks itself if its fault has no place. -/
theorem of_isScript {x : Except Fault α} (h : ∀ fault, x = .error fault → fault.isScript = false) :
    Tracks s s' f Eq x x := by
  cases x with
  | ok a => exact .ok rfl
  | error fault =>
    have htracks : Tracks s s' f Eq (.error fault : Except Fault α) _ := .fault fault
    rwa [Fault.renumber_of_isScript (h fault rfl)] at htracks

end Tracks

end Pipeline
