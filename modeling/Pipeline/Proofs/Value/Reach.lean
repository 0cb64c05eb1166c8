import Mathlib.Data.Finset.Prod
import Mathlib.Data.Finset.Range
import Mathlib.Logic.Relation
import Pipeline.Proofs.Faults
import Pipeline.Value.Sameness
import Pipeline.Value.Tree

/-!
# What a value reaches

A list holds its elements, and a value reaches what it holds through any number of lists.  Two
computations go through all that a value reaches, and both have a bound on the levels of lists they go
down: rendering stops at a list that it is inside of, and comparing after as many levels as there are
pairs of lists.

* `noText_of_render` : a value that has no text reaches a number that is too long, an object that is no
  value, or a list that contains itself.
* `endless_of_same` : two values that cannot be compared both reach a list that contains itself.

So neither bound is ever met by values in which no list contains itself.
-/

namespace Pipeline

/-! ### Items -/

namespace Tree

/-- The text of a value among the elements of a list. -/
def itemText : Tree → Except Fault String
  | .string s => .ok (Literal.ofString s)
  | tree => tree.render

theorem renderItems_cons (tree : Tree) (rest : List Tree) :
    renderItems (tree :: rest) = do
      let item ← tree.itemText
      return item :: (← renderItems rest) := by
  cases tree <;> rfl

theorem render_of_itemText_eq_error (tree : Tree) {fault : Fault}
    (h : tree.itemText = .error fault) : tree.render = .error fault := by
  cases tree with
  | string s => cases h
  | _ => exact h

end Tree

namespace Store

open Relation

variable (store : Store)

/-- A value is a list with another value among its elements. -/
def Holds (value element : Value) : Prop :=
  ∃ address, value = .list address ∧ element ∈ store.elements address

/-- A value reaches another one: it is that value, or holds a value that reaches it. -/
abbrev Reaches : Value → Value → Prop :=
  ReflTransGen store.Holds

/-- A value reaches a list that contains itself, as an element or further below. -/
def Endless (value : Value) : Prop :=
  ∃ list, store.Reaches value list ∧ TransGen store.Holds list list

variable {store}

theorem Endless.of_holds {value element : Value} (h : store.Holds value element)
    (helement : store.Endless element) : store.Endless value := by
  obtain ⟨list, hreaches, hcycle⟩ := helement
  exact ⟨list, .head h hreaches, hcycle⟩

/-- Only lists that are there have elements. -/
theorem lt_size_of_mem {address : Nat} {element : Value} (h : element ∈ store.elements address) :
    address < store.lists.size := by
  rcases Nat.lt_or_ge address store.lists.size with haddress | haddress
  · exact haddress
  · rw [elements, Array.getElem?_eq_none haddress] at h
    exact absurd h (Array.not_mem_empty element)

theorem lt_size_of_transGen {address : Nat} {value : Value}
    (h : TransGen store.Holds (.list address) value) : address < store.lists.size := by
  obtain ⟨_, ⟨_, heq, hmem⟩, -⟩ := TransGen.head'_iff.1 h
  cases heq
  exact lt_size_of_mem hmem

/-! ### Rendering -/

/-- Why a value has no text. -/
inductive NoText (store : Store) (value : Value) : Fault → Prop where
  | number {n : Int} : store.Reaches value (.number n) → Numeral.bound ≤ n.natAbs →
      NoText store value (.numeral .tooLong)
  | foreign {shown : String} : store.Reaches value (.foreign shown) →
      NoText store value (.notValue shown)
  | endless : store.Endless value → NoText store value .endless

theorem NoText.of_holds {value element : Value} {fault : Fault} (h : store.Holds value element)
    (helement : NoText store element fault) : NoText store value fault := by
  cases helement with
  | number hreaches hn => exact .number (.head h hreaches) hn
  | foreign hreaches => exact .foreign (.head h hreaches)
  | endless hendless => exact .endless (hendless.of_holds h)

theorem eq_error_of_render_list {trees : List Tree} {fault : Fault}
    (h : (Tree.list trees).render = .error fault) : Tree.renderItems trees = .error fault := by
  rw [Tree.render] at h
  rcases eq_error_or_of_bind h with hitems | ⟨texts, -, htexts⟩
  · exact hitems
  · cases htexts

/-- Items without texts have one among them that has none. -/
theorem exists_of_renderItems_eq_error {trees : List Tree} {fault : Fault}
    (h : Tree.renderItems trees = .error fault) : ∃ tree ∈ trees, tree.render = .error fault := by
  induction trees with
  | nil => cases h
  | cons tree rest ih =>
    rw [Tree.renderItems_cons] at h
    rcases eq_error_or_of_bind h with htree | ⟨text, -, htext⟩
    · exact ⟨tree, List.mem_cons_self, tree.render_of_itemText_eq_error htree⟩
    · rcases eq_error_or_of_bind htext with hrest | ⟨texts, -, htexts⟩
      · obtain ⟨other, hmem, hother⟩ := ih hrest
        exact ⟨other, List.mem_cons_of_mem _ hmem, hother⟩
      · cases htexts

/-- A path without repetition is no longer than there are lists. -/
theorem length_le_size {path : List Nat} (hnodup : path.Nodup)
    (h : ∀ address ∈ path, address < store.lists.size) : path.length ≤ store.lists.size := by
  rw [← List.toFinset_card_of_nodup hnodup, ← Finset.card_range store.lists.size]
  exact Finset.card_le_card fun address hmem =>
    Finset.mem_range.2 (h address (List.mem_toFinset.1 hmem))

theorem noText_of_treeBelow_of_ne_list {fuel : Nat} {path : List Nat} {value : Value} {fault : Fault}
    (hvalue : ∀ address, value ≠ .list address)
    (h : (store.treeBelow fuel path value).render = .error fault) : NoText store value fault := by
  cases value with
  | nothing => rw [treeBelow] at h; cases h
  | number n =>
    rw [treeBelow, Tree.render, Numeral.write] at h
    split at h
    · cases h
    · next hn =>
      cases h
      exact .number .refl (Nat.not_lt.1 hn)
  | string s => rw [treeBelow] at h; cases h
  | list address => exact absurd rfl (hvalue address)
  | foreign shown =>
    rw [treeBelow] at h
    cases h
    exact .foreign .refl

/-- The path holds the lists around the value, from the nearest one on. -/
theorem noText_of_treeBelow {fuel : Nat} {path : List Nat} {value : Value} {fault : Fault}
    (hroom : store.lists.size < path.length + fuel) (hnodup : path.Nodup)
    (hpath : ∀ address ∈ path, TransGen store.Holds (.list address) value)
    (h : (store.treeBelow fuel path value).render = .error fault) : NoText store value fault := by
  induction fuel generalizing path value with
  | zero =>
    have hlength := length_le_size hnodup fun address hmem => lt_size_of_transGen (hpath address hmem)
    omega
  | succ fuel ih =>
    by_cases hlist : ∃ address, value = .list address
    · obtain ⟨address, rfl⟩ := hlist
      rw [treeBelow] at h
      cases hindex : path.idxOf? address with
      | some k =>
        rw [hindex] at h
        cases h
        have hmem : address ∈ path := by
          by_contra hnot
          rw [List.idxOf?_eq_none_iff.2 hnot] at hindex
          cases hindex
        exact .endless ⟨_, .refl, hpath address hmem⟩
      | none =>
        rw [hindex] at h
        obtain ⟨tree, hmem, htree⟩ := exists_of_renderItems_eq_error (eq_error_of_render_list h)
        obtain ⟨element, helement, rfl⟩ := List.mem_map.1 hmem
        have hholds : store.Holds (.list address) element :=
          ⟨address, rfl, Array.mem_toList_iff.1 helement⟩
        refine .of_holds hholds (ih ?_ ?_ ?_ htree)
        · rw [List.length_cons]
          omega
        · exact List.nodup_cons.2 ⟨List.idxOf?_eq_none_iff.1 hindex, hnodup⟩
        · exact List.forall_mem_cons.2
            ⟨.single hholds, fun other hother => (hpath other hother).tail hholds⟩
    · exact noText_of_treeBelow_of_ne_list (fun address heq => hlist ⟨address, heq⟩) h

/-- A value without a text reaches what has none. -/
theorem noText_of_render {value : Value} {fault : Fault} (h : store.render value = .error fault) :
    NoText store value fault := by
  have hroom : store.lists.size < ([] : List Nat).length + (store.lists.size + 1) := by
    rw [List.length_nil]
    omega
  exact noText_of_treeBelow hroom List.nodup_nil (fun _ hmem => nomatch hmem) h

/-- That a value has no text is no fault of the script. -/
theorem isScript_of_render {value : Value} {fault : Fault} (h : store.render value = .error fault) :
    fault.isScript = false := by
  cases noText_of_render h <;> rfl

/-- A number that is too long has no text. -/
theorem render_of_long {n : Int} (hn : Numeral.bound ≤ n.natAbs) :
    store.render (.number n) = .error (.numeral .tooLong) := by
  show (Numeral.write n).mapError Fault.numeral = _
  rw [Numeral.write, if_neg (Nat.not_lt.2 hn)]
  rfl

/-! ### Comparing -/

/-- Pairs of lists without repetition are no more than there are pairs. -/
theorem length_le_size_mul_size {path : List (Nat × Nat)} (hnodup : path.Nodup)
    (h : ∀ pair ∈ path, pair.1 < store.lists.size ∧ pair.2 < store.lists.size) :
    path.length ≤ store.lists.size * store.lists.size := by
  have hcard : (Finset.range store.lists.size ×ˢ Finset.range store.lists.size).card =
      store.lists.size * store.lists.size := by
    rw [Finset.card_product, Finset.card_range]
  rw [← List.toFinset_card_of_nodup hnodup, ← hcard]
  refine Finset.card_le_card fun pair hmem => ?_
  have hpair := h pair (List.mem_toFinset.1 hmem)
  exact Finset.mem_product.2 ⟨Finset.mem_range.2 hpair.1, Finset.mem_range.2 hpair.2⟩

/-- A comparison in order that has no end has none at some pair. -/
theorem exists_of_sameAll_eq_none {same : Value → Value → Option Bool} {pairs : List (Value × Value)}
    (h : sameAll same pairs = none) : ∃ pair ∈ pairs, same pair.1 pair.2 = none := by
  induction pairs with
  | nil => cases h
  | cons pair rest ih =>
    rw [sameAll] at h
    cases hsame : same pair.1 pair.2 with
    | none => exact ⟨pair, List.mem_cons_self, hsame⟩
    | some result =>
      rw [hsame] at h
      cases result with
      | false => cases h
      | true =>
        obtain ⟨other, hmem, hother⟩ := ih h
        exact ⟨other, List.mem_cons_of_mem _ hmem, hother⟩

/-- Only two lists are looked into. -/
theorem lists_of_sameWithin_eq_none {fuel : Nat} {x y : Value}
    (h : store.sameWithin fuel x y = none) : ∃ a b, x = .list a ∧ y = .list b := by
  cases x <;> cases y <;> first
    | exact ⟨_, _, rfl, rfl⟩
    | simp [sameWithin] at h

/-- Two lists are looked into when they are as long and not the same list. -/
theorem sameAll_of_sameWithin_eq_none {fuel a b : Nat}
    (h : store.sameWithin (fuel + 1) (.list a) (.list b) = none) :
    sameAll (store.sameWithin fuel) ((store.elements a).toList.zip (store.elements b).toList) =
      none := by
  rw [sameWithin] at h
  split at h
  · cases h
  · dsimp only at h
    split at h
    · cases h
    · exact h

/-- The path holds the pairs of lists that are around the two values, from the nearest one on. -/
theorem endless_of_sameWithin {fuel : Nat} {path : List (Nat × Nat)} {x y : Value}
    (hroom : store.lists.size * store.lists.size < path.length + fuel) (hnodup : path.Nodup)
    (hpath : ∀ pair ∈ path, TransGen store.Holds (.list pair.1) x ∧
      TransGen store.Holds (.list pair.2) y)
    (h : store.sameWithin fuel x y = none) : store.Endless x ∧ store.Endless y := by
  induction fuel generalizing path x y with
  | zero =>
    have hlength := length_le_size_mul_size hnodup fun pair hmem =>
      ⟨lt_size_of_transGen (hpath pair hmem).1, lt_size_of_transGen (hpath pair hmem).2⟩
    omega
  | succ fuel ih =>
    obtain ⟨a, b, rfl, rfl⟩ := lists_of_sameWithin_eq_none h
    obtain ⟨⟨x, y⟩, hmem, hpair⟩ := exists_of_sameAll_eq_none (sameAll_of_sameWithin_eq_none h)
    obtain ⟨hx, hy⟩ := List.of_mem_zip hmem
    have hleft : store.Holds (.list a) x := ⟨a, rfl, Array.mem_toList_iff.1 hx⟩
    have hright : store.Holds (.list b) y := ⟨b, rfl, Array.mem_toList_iff.1 hy⟩
    by_cases hmet : (a, b) ∈ path
    · -- The two lists are inside of themselves.
      exact ⟨⟨_, .refl, (hpath _ hmet).1⟩, ⟨_, .refl, (hpath _ hmet).2⟩⟩
    · have hroom' : store.lists.size * store.lists.size < ((a, b) :: path).length + fuel := by
        rw [List.length_cons]
        omega
      have hbelow := ih hroom' (List.nodup_cons.2 ⟨hmet, hnodup⟩) (List.forall_mem_cons.2
        ⟨⟨.single hleft, .single hright⟩, fun pair hpair =>
          ⟨(hpath pair hpair).1.tail hleft, (hpath pair hpair).2.tail hright⟩⟩) hpair
      exact ⟨hbelow.1.of_holds hleft, hbelow.2.of_holds hright⟩

/-- Two values that cannot be compared reach lists that contain themselves. -/
theorem endless_of_same {x y : Value} {fault : Fault} (h : store.same x y = .error fault) :
    fault = .endless ∧ store.Endless x ∧ store.Endless y := by
  rw [same] at h
  cases hwithin : store.sameWithin (store.lists.size * store.lists.size + 1) x y with
  | some result =>
    rw [hwithin] at h
    cases h
  | none =>
    rw [hwithin] at h
    cases h
    have hroom : store.lists.size * store.lists.size <
        ([] : List (Nat × Nat)).length + (store.lists.size * store.lists.size + 1) := by
      rw [List.length_nil]
      omega
    exact ⟨rfl, endless_of_sameWithin hroom List.nodup_nil (fun _ hmem => nomatch hmem) hwithin⟩

end Store

end Pipeline
