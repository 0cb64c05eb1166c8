import Pipeline.Proofs.Value.Reach

/-!
# Values that have texts

A value has a text if it is built from nothing, strings, numbers that are not too long and lists, none
of which contains itself.  The tree of such a value is all there is to the value: no list is cut off in
it, so it does not matter how far down the lists are followed, and two such values are the same for the
language exactly if they have the same tree.

* `Plain`, `plain_iff` : the values that are built so.
* `treeBelow_eq` : the tree does not depend on the lists around the value.
* `same_iff_tree_eq` : sameness is equality of trees.
-/

namespace Pipeline

namespace Tree

/-- A tree has a text: nothing in it is cut off, foreign or too long. -/
def HasText (tree : Tree) : Prop :=
  ∃ text, tree.render = .ok text

theorem hasText_of_itemText {tree : Tree} {text : String} (h : tree.itemText = .ok text) :
    tree.HasText := by
  cases tree with
  | string s => exact ⟨s, rfl⟩
  | _ => exact ⟨text, h⟩

theorem hasText_of_renderItems {trees : List Tree} {texts : List String}
    (h : renderItems trees = .ok texts) : ∀ tree ∈ trees, tree.HasText := by
  induction trees generalizing texts with
  | nil => exact fun _ hmem => nomatch hmem
  | cons tree rest ih =>
    rw [renderItems_cons] at h
    obtain ⟨item, hitem, h⟩ := exists_of_bind_eq_ok h
    obtain ⟨items, hitems, -⟩ := exists_of_bind_eq_ok h
    exact List.forall_mem_cons.2 ⟨hasText_of_itemText hitem, ih hitems⟩

/-- The text of a list is put together from those of its elements. -/
theorem exists_of_render_list {trees : List Tree} {text : String}
    (h : (list trees).render = .ok text) :
    ∃ texts, renderItems trees = .ok texts ∧ text = "[" ++ ", ".intercalate texts ++ "]" := by
  rw [render] at h
  obtain ⟨texts, htexts, h⟩ := exists_of_bind_eq_ok h
  cases h
  exact ⟨texts, htexts, rfl⟩

theorem HasText.of_mem {trees : List Tree} (h : (list trees).HasText) :
    ∀ tree ∈ trees, tree.HasText := by
  obtain ⟨text, htext⟩ := h
  obtain ⟨texts, htexts, -⟩ := exists_of_render_list htext
  exact hasText_of_renderItems htexts

theorem not_hasText_foreign (shown : String) : ¬(foreign shown).HasText := by
  rintro ⟨text, h⟩
  cases h

end Tree

namespace Store

open Relation

variable {store : Store}

/-- A value is built from nothing, strings, numbers that can be written, and lists of such values.  A
list that contains itself is not built so. -/
inductive Plain (store : Store) : Value → Prop where
  | nothing : Plain store .nothing
  | number {n : Int} : n.natAbs < Numeral.bound → Plain store (.number n)
  | string (s : String) : Plain store (.string s)
  | list {address : Nat} : (∀ element ∈ store.elements address, Plain store element) →
      Plain store (.list address)

/-- An element of an endless value is endless. -/
theorem exists_holds_of_endless {value : Value} (h : store.Endless value) :
    ∃ element, store.Holds value element ∧ store.Endless element := by
  obtain ⟨list, hreaches, hcycle⟩ := h
  rcases hreaches.cases_head with rfl | ⟨element, hholds, hrest⟩
  · obtain ⟨element, hholds, hrest⟩ := TransGen.head'_iff.1 hcycle
    exact ⟨element, hholds, value, hrest, hcycle⟩
  · exact ⟨element, hholds, list, hrest, hcycle⟩

namespace Plain

variable {value element : Value}

theorem of_holds (h : store.Plain value) (hholds : store.Holds value element) :
    store.Plain element := by
  obtain ⟨address, rfl, hmem⟩ := hholds
  cases h with
  | list helements => exact helements element hmem

theorem of_reaches (h : store.Plain value) (hreaches : store.Reaches value element) :
    store.Plain element := by
  induction hreaches with
  | refl => exact h
  | tail _ hholds ih => exact ih.of_holds hholds

theorem not_endless (h : store.Plain value) : ¬store.Endless value := by
  induction h with
  | list _ ih =>
    intro hendless
    obtain ⟨element, ⟨address, heq, hmem⟩, helement⟩ := exists_holds_of_endless hendless
    cases heq
    exact ih element hmem helement
  | _ =>
    intro hendless
    obtain ⟨element, ⟨address, heq, -⟩, -⟩ := exists_holds_of_endless hendless
    cases heq

theorem writable (h : store.Plain value) (n : Int) (hreaches : store.Reaches value (.number n)) :
    n.natAbs < Numeral.bound := by
  cases h.of_reaches hreaches with
  | number hn => exact hn

theorem not_foreign (h : store.Plain value) (shown : String) :
    ¬store.Reaches value (.foreign shown) := by
  intro hreaches
  cases h.of_reaches hreaches

end Plain

/-- What has no text reaches a number that is too long, a foreign object or a list that contains
itself. -/
theorem exists_render_of_reaches {value : Value}
    (hnumbers : ∀ n, store.Reaches value (.number n) → n.natAbs < Numeral.bound)
    (hforeign : ∀ shown, ¬store.Reaches value (.foreign shown)) (hendless : ¬store.Endless value) :
    ∃ text, store.render value = .ok text := by
  cases hrender : store.render value with
  | ok text => exact ⟨text, rfl⟩
  | error fault =>
    cases noText_of_render hrender with
    | number hreaches hlong => exact absurd (hnumbers _ hreaches) (Nat.not_lt.2 hlong)
    | foreign hreaches => exact absurd hreaches (hforeign _)
    | endless h => exact absurd h hendless

/-- A value that is built so has a text. -/
theorem Plain.exists_render {value : Value} (h : store.Plain value) :
    ∃ text, store.render value = .ok text :=
  exists_render_of_reaches h.writable h.not_foreign h.not_endless

/-! ### The tree of a list -/

section Trees

variable {fuel fuel' : Nat} {path path' : List Nat}

/-- The tree of a list that has a text holds the trees of its elements, which have texts. -/
theorem treeBelow_list {address : Nat} (h : (store.treeBelow fuel path (.list address)).HasText) :
    ∃ less, fuel = less + 1 ∧
      store.treeBelow fuel path (.list address) =
        .list ((store.elements address).toList.map (store.treeBelow less (address :: path))) ∧
      ∀ element ∈ (store.elements address).toList,
        (store.treeBelow less (address :: path) element).HasText := by
  have hcut (k : Nat) : ¬(Tree.cycle k).HasText := by
    rintro ⟨text, h⟩
    cases h
  cases fuel with
  | zero =>
    rw [treeBelow.eq_def] at h
    dsimp only at h
    split at h <;> exact absurd h (hcut _)
  | succ less =>
    rw [treeBelow] at h ⊢
    cases hindex : path.idxOf? address with
    | some k =>
      rw [hindex] at h
      exact absurd h (hcut _)
    | none =>
      rw [hindex] at h
      exact ⟨less, rfl, rfl, fun element hmem => h.of_mem _ (List.mem_map_of_mem hmem)⟩

theorem exists_tree_list {address : Nat} (h : (store.tree (.list address)).HasText) :
    ∃ trees, store.tree (.list address) = .list trees := by
  obtain ⟨less, -, htree, -⟩ := treeBelow_list h
  exact ⟨_, htree⟩

/-- Where nothing is cut off, it does not matter where the tree would have been cut off. -/
theorem treeBelow_eq {value : Value} (h : (store.treeBelow fuel path value).HasText)
    (h' : (store.treeBelow fuel' path' value).HasText) :
    store.treeBelow fuel path value = store.treeBelow fuel' path' value := by
  induction fuel generalizing fuel' path path' value with
  | zero =>
    cases value with
    | list address =>
      obtain ⟨less, hless, -⟩ := treeBelow_list h
      cases hless
    | _ => rw [treeBelow, treeBelow]
  | succ fuel ih =>
    cases value with
    | list address =>
      obtain ⟨less, hless, htree, helements⟩ := treeBelow_list h
      obtain ⟨less', -, htree', helements'⟩ := treeBelow_list h'
      cases hless
      rw [htree, htree']
      exact congrArg Tree.list (List.map_congr_left fun element hmem =>
        ih (helements element hmem) (helements' element hmem))
    | _ => rw [treeBelow, treeBelow]

/-- What has a text is built as it is said. -/
theorem plain_of_hasText {value : Value} (h : (store.treeBelow fuel path value).HasText) :
    store.Plain value := by
  induction fuel using Nat.strong_induction_on generalizing path value with
  | _ fuel ih =>
    cases value with
    | nothing => exact .nothing
    | number n =>
      obtain ⟨text, htext⟩ := h
      rw [treeBelow, Tree.render, Numeral.write] at htext
      split at htext
      · next hn => exact .number hn
      · cases htext
    | string s => exact .string s
    | list address =>
      obtain ⟨less, rfl, -, helements⟩ := treeBelow_list h
      exact .list fun element hmem =>
        ih less (Nat.lt_succ_self less) (helements element (Array.mem_toList_iff.2 hmem))
    | foreign shown =>
      rw [treeBelow] at h
      exact absurd h (Tree.not_hasText_foreign shown)

/-! ### Sameness -/

/-- Lists of one length are the same, item by item, exactly if they have the same trees. -/
theorem sameAll_zip {same : Value → Value → Option Bool} {tree tree' : Value → Tree}
    {xs ys : List Value} {result : Bool}
    (hsame : ∀ x ∈ xs, ∀ y ∈ ys, ∀ result, same x y = some result →
      (result = true ↔ tree x = tree' y))
    (hlength : xs.length = ys.length) (h : sameAll same (xs.zip ys) = some result) :
    result = true ↔ xs.map tree = ys.map tree' := by
  induction xs generalizing ys with
  | nil =>
    obtain rfl := List.length_eq_zero_iff.1 hlength.symm
    cases h
    exact iff_of_true rfl rfl
  | cons x xs ih =>
    cases ys with
    | nil => cases hlength
    | cons y ys =>
      have hrest := ih (fun x hx y hy => hsame x (List.mem_cons_of_mem _ hx) y
        (List.mem_cons_of_mem _ hy)) (Nat.succ.inj hlength)
      have hfirst := hsame x List.mem_cons_self y List.mem_cons_self
      rw [List.zip_cons_cons, sameAll] at h
      rw [List.map_cons, List.map_cons, List.cons.injEq]
      cases hxy : same x y with
      | none =>
        rw [hxy] at h
        cases h
      | some first =>
        rw [hxy] at h
        cases first with
        | true =>
          rw [and_iff_right ((hfirst true hxy).1 rfl)]
          exact hrest h
        | false =>
          cases h
          exact iff_of_false Bool.false_ne_true fun heq =>
            Bool.false_ne_true ((hfirst false hxy).2 heq.1)

/-- Values that are not both lists are compared at once. -/
theorem sameWithin_of_not_lists {x y : Value} (hx : (store.treeBelow fuel path x).HasText)
    (hy : (store.treeBelow fuel' path' y).HasText) (hlists : ∀ a b, x = .list a → y ≠ .list b)
    (level : Nat) : store.sameWithin level x y = some (x == y) := by
  have hknown {fuel : Nat} {path : List Nat} {shown : String} :
      ¬(store.treeBelow fuel path (.foreign shown)).HasText := by
    rw [treeBelow]
    exact Tree.not_hasText_foreign shown
  cases x with
  | foreign shown => exact absurd hx hknown
  | list a =>
    cases y with
    | foreign shown => exact absurd hy hknown
    | list b => exact absurd rfl (hlists a b rfl)
    | _ => simp only [sameWithin]
  | _ =>
    cases y with
    | foreign shown => exact absurd hy hknown
    | _ => simp only [sameWithin]

/-- Their trees tell them apart. -/
theorem treeBelow_eq_iff_of_not_lists {x y : Value}
    (hx : (store.treeBelow fuel path x).HasText) (hy : (store.treeBelow fuel' path' y).HasText)
    (hlists : ∀ a b, x = .list a → y ≠ .list b) :
    store.treeBelow fuel path x = store.treeBelow fuel' path' y ↔ x = y := by
  cases x with
  | list a =>
    obtain ⟨less, -, htree, -⟩ := treeBelow_list hx
    rw [htree]
    cases y with
    | list b => exact absurd rfl (hlists a b rfl)
    | _ =>
      rw [treeBelow]
      exact iff_of_false (fun heq => by cases heq) (fun heq => by cases heq)
  | _ =>
    cases y with
    | list b =>
      obtain ⟨less, -, htree, -⟩ := treeBelow_list hy
      rw [htree, treeBelow]
      exact iff_of_false (fun heq => by cases heq) (fun heq => by cases heq)
    | _ => simp [treeBelow]

/-- Two lists that are not one are compared by their elements, if they have as many. -/
theorem sameWithin_lists {level a b : Nat} {result : Bool} (hab : a ≠ b)
    (h : store.sameWithin level (.list a) (.list b) = some result) :
    (store.elements a).size ≠ (store.elements b).size ∧ result = false ∨
      (store.elements a).size = (store.elements b).size ∧ ∃ less, less < level ∧
        sameAll (store.sameWithin less) ((store.elements a).toList.zip (store.elements b).toList) =
          some result := by
  rw [sameWithin, if_neg hab] at h
  dsimp only at h
  split at h
  · next hsize =>
    cases h
    exact .inl ⟨bne_iff_ne.1 hsize, rfl⟩
  · next hsize =>
    have hsize : (store.elements a).size = (store.elements b).size := by simpa using hsize
    cases level with
    | zero => cases h
    | succ less => exact .inr ⟨hsize, less, Nat.lt_succ_self less, h⟩

/-- What a comparison finds is whether the trees are equal. -/
theorem sameWithin_iff {level : Nat} {x y : Value} {result : Bool}
    (hx : (store.treeBelow fuel path x).HasText) (hy : (store.treeBelow fuel' path' y).HasText)
    (h : store.sameWithin level x y = some result) :
    result = true ↔ store.treeBelow fuel path x = store.treeBelow fuel' path' y := by
  induction level using Nat.strong_induction_on generalizing fuel path fuel' path' x y result with
  | _ level ih =>
    by_cases hlists : ∀ a b, x = .list a → y ≠ .list b
    · -- Two lists are all that is looked into.
      rw [sameWithin_of_not_lists hx hy hlists] at h
      cases h
      rw [treeBelow_eq_iff_of_not_lists hx hy hlists, beq_iff_eq]
    · push Not at hlists
      obtain ⟨a, b, rfl, rfl⟩ := hlists
      by_cases hab : a = b
      · subst hab
        rw [sameWithin, if_pos rfl] at h
        cases h
        exact iff_of_true rfl (treeBelow_eq hx hy)
      · obtain ⟨less, -, htree, helements⟩ := treeBelow_list hx
        obtain ⟨less', -, htree', helements'⟩ := treeBelow_list hy
        rw [htree, htree', Tree.list.injEq]
        rcases sameWithin_lists hab h with ⟨hsize, rfl⟩ | ⟨hsize, level', hlevel, hall⟩
        · refine iff_of_false Bool.false_ne_true fun heq => hsize ?_
          simpa using congrArg List.length heq
        · refine sameAll_zip (fun x hx y hy result hxy => ?_) (by simpa using hsize) hall
          exact ih level' hlevel (helements x hx) (helements' y hy) hxy

end Trees

/-- A value is built as it is said exactly if no number that it reaches is too long, everything that it
reaches is a value of the language, and no list contains itself. -/
theorem plain_iff {value : Value} :
    store.Plain value ↔ (∀ n, store.Reaches value (.number n) → n.natAbs < Numeral.bound) ∧
      (∀ shown, ¬store.Reaches value (.foreign shown)) ∧ ¬store.Endless value := by
  constructor
  · intro h
    exact ⟨h.writable, h.not_foreign, h.not_endless⟩
  · rintro ⟨hnumbers, hforeign, hendless⟩
    exact plain_of_hasText (exists_render_of_reaches hnumbers hforeign hendless)

/-- Two values that have texts are the same exactly if they have the same tree. -/
theorem same_iff_tree_eq {x y : Value} (hx : store.Plain x) (hy : store.Plain y) :
    store.same x y = .ok true ↔ store.tree x = store.tree y := by
  cases hsame : store.same x y with
  | error fault => exact absurd (endless_of_same hsame).2.1 hx.not_endless
  | ok result =>
    rw [same] at hsame
    cases hwithin : store.sameWithin (store.lists.size * store.lists.size + 1) x y with
    | none =>
      rw [hwithin] at hsame
      cases hsame
    | some found =>
      rw [hwithin] at hsame
      cases hsame
      rw [Except.ok.injEq]
      exact sameWithin_iff hx.exists_render hy.exists_render hwithin

end Store

end Pipeline
