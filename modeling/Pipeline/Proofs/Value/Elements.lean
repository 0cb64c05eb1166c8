import Pipeline.Value

/-!
# The elements of changed stores

A store is changed in two ways: a list is added, or an element of a list is replaced.  A list that is
added is the only one with new elements, and replacing an element makes no list longer or shorter.

* `elements_alloc_self`, `elements_alloc_of_ne` : the elements behind an added list.
* `elements_write_self`, `elements_write_of_ne` : the elements behind a replaced one.
* `mem_of_write`, `size_elements_write` : what this says about members and sizes.
-/

namespace Pipeline.Store

variable {store : Store}

/-! ### New lists -/

theorem elements_alloc_self (elements : Array Value) :
    (store.alloc elements).2.elements store.lists.size = elements := by
  rw [Store.elements, alloc, Array.getElem?_push_size, Option.getD_some]

theorem elements_alloc_of_ne (elements : Array Value) {address : Nat}
    (h : address ≠ store.lists.size) :
    (store.alloc elements).2.elements address = store.elements address := by
  rw [Store.elements, alloc, Array.getElem?_push, if_neg h]
  rfl

/-- What is an element of a list afterwards is an element of the new list, or was one before. -/
theorem mem_of_alloc {elements : Array Value} {address : Nat} {element : Value}
    (h : element ∈ (store.alloc elements).2.elements address) :
    element ∈ elements ∨ element ∈ store.elements address := by
  by_cases hnew : address = store.lists.size
  · rw [hnew, elements_alloc_self] at h
    exact .inl h
  · rw [elements_alloc_of_ne elements hnew] at h
    exact .inr h

/-! ### Elements that are replaced -/

variable {address index : Nat} {value : Value}

theorem elements_write_of_ne {other : Nat} (h : other ≠ address) :
    (store.write address index value).elements other = store.elements other := by
  rw [Store.elements, write, Array.getElem?_modify, if_neg h.symm]
  rfl

theorem elements_write_self :
    (store.write address index value).elements address =
      (store.elements address).setIfInBounds index value := by
  rw [Store.elements, write, Array.getElem?_modify, if_pos rfl, Store.elements]
  cases store.lists[address]? with
  | none => simp
  | some elements => rfl

/-- What is an element of a list afterwards was one before, or is the new element. -/
theorem mem_of_write {other : Nat} {element : Value}
    (h : element ∈ (store.write address index value).elements other) :
    element ∈ store.elements other ∨ other = address ∧ element = value := by
  by_cases hother : other = address
  · rw [hother, elements_write_self] at h
    rcases Array.mem_or_eq_of_mem_setIfInBounds h with hold | hnew
    · exact .inl (hother ▸ hold)
    · exact .inr ⟨hother, hnew⟩
  · rw [elements_write_of_ne hother] at h
    exact .inl h

theorem size_elements_write (other : Nat) :
    ((store.write address index value).elements other).size = (store.elements other).size := by
  by_cases hother : other = address
  · rw [hother, elements_write_self, Array.size_setIfInBounds]
  · rw [elements_write_of_ne hother]

end Pipeline.Store
