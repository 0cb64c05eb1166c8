import Pipeline.Proofs.Value.Elements
import Pipeline.Proofs.Value.Reach

/-!
# Lists that contain themselves

Lists are shared, so a list may come to contain itself when one of its elements is replaced.  It does so
exactly if the new element reaches the list; nothing else that is done to a store has this effect.

* `Acyclic.alloc` : a new list of values that are no lists.
* `not_acyclic_write`, `Acyclic.write` : an element that is replaced.
* `Acyclic.render_ne_endless`, `Acyclic.exists_same` : what comes to its end where no list contains
  itself.
-/

namespace Pipeline.Store

open Relation

variable {store : Store}

/-- No list contains itself, as an element or further below. -/
def Acyclic (store : Store) : Prop :=
  ∀ address, ¬TransGen store.Holds (.list address) (.list address)

theorem acyclic_empty : ({} : Store).Acyclic := by
  intro address h
  have haddress := lt_size_of_transGen h
  exact absurd haddress (Nat.not_lt_zero address)

theorem Acyclic.not_endless (h : store.Acyclic) (value : Value) : ¬store.Endless value := by
  rintro ⟨list, -, hcycle⟩
  obtain ⟨_, ⟨address, rfl, -⟩, -⟩ := TransGen.head'_iff.1 hcycle
  exact h address hcycle

/-- Where no list contains itself, rendering comes to its end. -/
theorem Acyclic.render_ne_endless (h : store.Acyclic) (value : Value) :
    store.render value ≠ .error .endless := by
  intro hrender
  cases noText_of_render hrender with
  | endless hendless => exact h.not_endless value hendless

/-- So does comparing, which has no other fault. -/
theorem Acyclic.exists_same (h : store.Acyclic) (x y : Value) :
    ∃ result, store.same x y = .ok result := by
  cases hsame : store.same x y with
  | ok result => exact ⟨result, rfl⟩
  | error fault => exact absurd (endless_of_same hsame).2.1 (h.not_endless x)

/-! ### New lists -/

/-- None of some values is a list. -/
def Flat (elements : Array Value) : Prop :=
  ∀ element ∈ elements, ∀ address, element ≠ .list address

/-- A list is held by what held it before, when the new list holds no lists. -/
theorem holds_of_alloc {elements : Array Value} (hflat : Flat elements) {value : Value}
    {address : Nat} (h : (store.alloc elements).2.Holds value (.list address)) :
    store.Holds value (.list address) := by
  obtain ⟨holder, rfl, hmem⟩ := h
  rcases mem_of_alloc hmem with hnew | hold
  · exact absurd rfl (hflat _ hnew address)
  · exact ⟨holder, rfl, hold⟩

/-- A new list without lists in it makes no list contain itself. -/
theorem Acyclic.alloc (h : store.Acyclic) {elements : Array Value} (hflat : Flat elements) :
    (store.alloc elements).2.Acyclic := by
  have hpath {value : Value} {address : Nat}
      (hreach : TransGen (store.alloc elements).2.Holds value (.list address)) :
      TransGen store.Holds value (.list address) := by
    induction hreach using TransGen.head_induction_on with
    | single hholds => exact .single (holds_of_alloc hflat hholds)
    | head hholds hrest ih =>
      -- What holds something is a list.
      obtain ⟨_, ⟨between, rfl, -⟩, -⟩ := TransGen.head'_iff.1 hrest
      exact .head (holds_of_alloc hflat hholds) ih
  exact fun address hcycle => h address (hpath hcycle)

/-! ### Elements that are replaced -/

section Write

variable {address index : Nat} {value : Value}

theorem holds_write_of_size_le (hindex : (store.elements address).size ≤ index) (x y : Value) :
    (store.write address index value).Holds x y ↔ store.Holds x y := by
  have helements (other : Nat) :
      (store.write address index value).elements other = store.elements other := by
    by_cases hother : other = address
    · rw [hother, elements_write_self, Array.setIfInBounds_eq_of_size_le hindex]
    · exact elements_write_of_ne hother
  simp only [Holds, helements]

/-- What is held afterwards was held before, or is the new element. -/
theorem holds_of_write {x y : Value} (h : (store.write address index value).Holds x y) :
    store.Holds x y ∨ x = .list address ∧ y = value := by
  obtain ⟨holder, rfl, hmem⟩ := h
  rcases mem_of_write hmem with hold | ⟨rfl, rfl⟩
  · exact .inl ⟨holder, rfl, hold⟩
  · exact .inr ⟨rfl, rfl⟩

theorem holds_write_new (hindex : index < (store.elements address).size) :
    (store.write address index value).Holds (.list address) value := by
  refine ⟨address, rfl, ?_⟩
  rw [elements_write_self]
  exact Array.mem_setIfInBounds hindex

theorem holds_write_of_ne {x y : Value} (hx : x ≠ .list address) (h : store.Holds x y) :
    (store.write address index value).Holds x y := by
  obtain ⟨holder, rfl, hmem⟩ := h
  have hholder : holder ≠ address := fun heq => hx (by rw [heq])
  exact ⟨holder, rfl, by rwa [elements_write_of_ne hholder]⟩

/-- The way to the list that is written to does not lead through it. -/
theorem reaches_write {x : Value} (h : store.Reaches x (.list address)) :
    (store.write address index value).Reaches x (.list address) := by
  induction h using ReflTransGen.head_induction_on with
  | refl => exact .refl
  | @head x y hholds _ ih =>
    by_cases hx : x = .list address
    · rw [hx]
    · exact .head (holds_write_of_ne hx hholds) ih

/-- A way that is there afterwards was there before, or the list that is written to is on the way and the
new element reaches the end. -/
theorem transGen_of_write (hvalue : ¬store.Reaches value (.list address)) {x y : Value}
    (h : TransGen (store.write address index value).Holds x y) :
    TransGen store.Holds x y ∨ store.Reaches x (.list address) ∧ store.Reaches value y := by
  induction h with
  | single hholds =>
    rcases holds_of_write hholds with hold | ⟨rfl, rfl⟩
    · exact .inl (.single hold)
    · exact .inr ⟨.refl, .refl⟩
  | tail _ hholds ih =>
    rcases holds_of_write hholds with hold | ⟨rfl, rfl⟩
    · rcases ih with hbefore | ⟨hlist, hend⟩
      · exact .inl (hbefore.tail hold)
      · exact .inr ⟨hlist, hend.tail hold⟩
    · rcases ih with hbefore | ⟨-, hend⟩
      · exact .inr ⟨hbefore.to_reflTransGen, .refl⟩
      · exact absurd hend hvalue

/-- A list contains itself when its new element reaches it. -/
theorem not_acyclic_write (hindex : index < (store.elements address).size)
    (hvalue : store.Reaches value (.list address)) :
    ¬(store.write address index value).Acyclic := by
  intro hafter
  exact hafter address (.head' (holds_write_new hindex) (reaches_write hvalue))

/-- And only then does it come to contain itself. -/
theorem Acyclic.write (h : store.Acyclic) (hvalue : ¬store.Reaches value (.list address)) :
    (store.write address index value).Acyclic := by
  intro other hcycle
  rcases transGen_of_write hvalue hcycle with hbefore | ⟨hlist, hend⟩
  · exact h other hbefore
  · exact hvalue (hend.trans hlist)

/-- A position behind the last element is not written to. -/
theorem Acyclic.write_of_size_le (h : store.Acyclic)
    (hindex : (store.elements address).size ≤ index) :
    (store.write address index value).Acyclic := by
  intro other hcycle
  exact h other (TransGen.mono (fun x y => (holds_write_of_size_le hindex x y).1) _ _ hcycle)

end Write

end Pipeline.Store
