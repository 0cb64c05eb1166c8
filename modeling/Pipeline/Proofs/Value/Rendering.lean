import Pipeline.Proofs.Expr.Literals
import Pipeline.Proofs.Expr.Printing
import Pipeline.Proofs.Value.Sameness

/-!
# The texts of lists

In the text of a list, the elements stand between brackets with commas between them, and a string among
them stands as its literal.  Such a text can be read in one way only: the first character of an element
tells of what kind it is, and the kind tells where the element ends.  A literal ends at its closing
quote, a list at its closing bracket, and a numeral in front of the comma or the bracket behind it.

* `Tree.Item`, `Tree.Tail` : the grammar of these texts.
* `Tree.Item.unique` : one text is read in one way, whatever comes behind it.
* `Tree.item_of_itemText` : rendering writes by the grammar.
* `Store.render_list_unambiguous` : lists with one text are one list to everyone who looks at their
  elements.
-/

namespace Pipeline

/-! ### Numerals and literals -/

namespace Numeral

open Text

/-- A character of a numeral. -/
def isNumeralChar (c : Char) : Bool :=
  c == '-' || isLatinDigit c

theorem repr_injective {m n : Nat} (h : m.repr = n.repr) : m = n := by
  have hdigits : Nat.toDigits 10 m = Nat.toDigits 10 n := by
    rw [← Nat.toList_repr, ← Nat.toList_repr, h]
  rw [← Nat.ofDigitChars_ten_toDigits (n := m), hdigits, Nat.ofDigitChars_ten_toDigits]

/-- The digits of a number, behind a sign if it is negative. -/
theorem toList_toString (n : Int) :
    (∃ m : Nat, n = m ∧ (toString n).toList = m.repr.toList) ∨
      ∃ m : Nat, n = -m ∧ (toString n).toList = '-' :: m.repr.toList := by
  cases n with
  | ofNat m => exact .inl ⟨m, rfl, rfl⟩
  | negSucc m =>
    refine .inr ⟨m + 1, rfl, ?_⟩
    show ("-" ++ (m + 1).repr).toList = _
    rw [String.toList_append]
    rfl

theorem toList_toString_ne_nil (n : Int) : (toString n).toList ≠ [] := by
  rcases toList_toString n with ⟨m, -, hm⟩ | ⟨m, -, hm⟩ <;> rw [hm]
  · exact repr_toList_ne_nil m
  · exact List.cons_ne_nil _ _

theorem isNumeralChar_of_mem {n : Int} {c : Char} (h : c ∈ (toString n).toList) :
    isNumeralChar c = true := by
  rcases toList_toString n with ⟨m, -, hm⟩ | ⟨m, -, hm⟩ <;> rw [hm] at h
  · rw [isNumeralChar, isLatinDigit_of_mem_repr h, Bool.or_true]
  · rcases List.mem_cons.1 h with rfl | h
    · rfl
    · rw [isNumeralChar, isLatinDigit_of_mem_repr h, Bool.or_true]

theorem minus_not_mem_repr (n : Nat) : '-' ∉ n.repr.toList := fun h =>
  absurd (isLatinDigit_of_mem_repr h) (by decide)

/-- A number is told by its digits and its sign. -/
theorem toString_injective {m n : Int} (h : (toString m).toList = (toString n).toList) : m = n := by
  rcases toList_toString m with ⟨i, rfl, hi⟩ | ⟨i, rfl, hi⟩ <;>
    rcases toList_toString n with ⟨j, rfl, hj⟩ | ⟨j, rfl, hj⟩ <;> rw [hi, hj] at h
  · rw [repr_injective (String.toList_inj.1 h)]
  · exact absurd (h ▸ List.mem_cons_self) (minus_not_mem_repr i)
  · exact absurd (h.symm ▸ List.mem_cons_self) (minus_not_mem_repr j)
  · rw [repr_injective (String.toList_inj.1 (List.cons_inj_right _ |>.1 h))]

end Numeral

/-- A literal ends where its text says. -/
theorem Literal.quote_append_inj {s s' rest rest' : List Char}
    (h : quote s ++ rest = quote s' ++ rest') : s = s' ∧ rest = rest' := by
  have hread (s rest : List Char) :
      Token.readString .keep (quote s ++ rest).tail = .ok (s, rest) := by
    rw [quote_eq, List.cons_append, List.tail_cons, List.append_assoc]
    exact readString_literal .keep s rest
  have hpair := (hread s rest).symm.trans (h ▸ hread s' rest')
  cases hpair
  exact ⟨rfl, rfl⟩

/-! ### The grammar -/

namespace Tree

/-- The kind of a value; the mark of a cut and a foreign object have none. -/
def kind? : Tree → Option ValueKind
  | .nothing => some .nothing
  | .number _ => some .number
  | .string _ => some .string
  | .list _ => some .list
  | .cycle _ | .foreign _ => none

mutual

/-- The characters of a value among the elements of a list. -/
inductive Item : Tree → List Char → Prop where
  | nothing : Item .nothing ['n', 'i', 'l']
  | number (n : Int) : Item (.number n) (toString n).toList
  | string (s : String) : Item (.string s) (Literal.quote s.toList)
  | empty : Item (.list []) ['[', ']']
  | list {tree : Tree} {trees : List Tree} {s t : List Char} : Item tree s → Tail trees t →
      Item (.list (tree :: trees)) ('[' :: (s ++ t))

/-- The characters behind an element of a list: the elements that follow, and the closing bracket. -/
inductive Tail : List Tree → List Char → Prop where
  | close : Tail [] [']']
  | next {tree : Tree} {trees : List Tree} {s t : List Char} : Item tree s → Tail trees t →
      Tail (tree :: trees) (',' :: ' ' :: (s ++ t))

end

/-- The kind of a value that begins with a character. -/
def kindOf (c : Char) : Option ValueKind :=
  if Numeral.isNumeralChar c then some .number
  else
    match c with
    | 'n' => some .nothing
    | '"' => some .string
    | '[' => some .list
    | _ => none

/-- The first character of a value tells its kind. -/
theorem Item.head {tree : Tree} {s : List Char} (h : Item tree s) :
    ∃ c t, s = c :: t ∧ kindOf c = tree.kind? := by
  cases h with
  | number n =>
    obtain ⟨c, t, hs⟩ := List.exists_cons_of_ne_nil (Numeral.toList_toString_ne_nil n)
    have hc : Numeral.isNumeralChar c = true :=
      Numeral.isNumeralChar_of_mem (hs ▸ List.mem_cons_self)
    exact ⟨c, t, hs, if_pos hc⟩
  | _ => exact ⟨_, _, rfl, rfl⟩

theorem Item.kind_eq {tree tree' : Tree} {s s' rest rest' : List Char} (h : Item tree s)
    (h' : Item tree' s') (heq : s ++ rest = s' ++ rest') : tree.kind? = tree'.kind? := by
  obtain ⟨c, t, rfl, hc⟩ := h.head
  obtain ⟨c', t', rfl, hc'⟩ := h'.head
  obtain rfl : c = c' := (List.cons.inj heq).1
  exact hc.symm.trans hc'

/-- No value begins with the bracket that closes a list. -/
theorem Item.ne_closing {tree : Tree} {s rest rest' : List Char} (h : Item tree s) :
    s ++ rest ≠ ']' :: rest' := by
  intro heq
  have hkind : tree.kind? ≠ none := by cases h <;> exact nofun
  obtain ⟨c, t, rfl, hc⟩ := h.head
  obtain rfl : c = ']' := (List.cons.inj heq).1
  exact hkind hc.symm

/-- A numeral ends where an element of a list ends. -/
theorem Tail.head {trees : List Tree} {s : List Char} (h : Tail trees s) (rest : List Char) :
    ∀ c ∈ (s ++ rest).head?, Numeral.isNumeralChar c = false := by
  intro c hc
  cases h <;> cases hc <;> rfl

/-- A numeral goes as far as there are characters of numerals. -/
theorem numeral_append_inj {m n : Int} {rest rest' : List Char}
    (h : (toString m).toList ++ rest = (toString n).toList ++ rest')
    (hrest : ∀ c ∈ rest.head?, Numeral.isNumeralChar c = false)
    (hrest' : ∀ c ∈ rest'.head?, Numeral.isNumeralChar c = false) : m = n ∧ rest = rest' := by
  have hm := Text.run_append (fun _ => Numeral.isNumeralChar_of_mem (n := m)) hrest
  have hn := Text.run_append (fun _ => Numeral.isNumeralChar_of_mem (n := n)) hrest'
  rw [h] at hm
  exact ⟨Numeral.toString_injective (hm.1.symm.trans hn.1), hm.2.symm.trans hn.2⟩

mutual

/-- One text is read as one value, whatever comes behind it. -/
theorem Item.unique {tree tree' : Tree} {s s' rest rest' : List Char} (h : Item tree s)
    (h' : Item tree' s') (heq : s ++ rest = s' ++ rest')
    (hrest : ∀ c ∈ rest.head?, Numeral.isNumeralChar c = false)
    (hrest' : ∀ c ∈ rest'.head?, Numeral.isNumeralChar c = false) :
    tree = tree' ∧ rest = rest' := by
  -- Values of two kinds differ in the first character, so both are written by the same rule, but for
  -- an empty list beside one with elements.
  have hkind := h.kind_eq h' heq
  match h with
  | .nothing =>
    cases h' with
    | nothing => exact ⟨rfl, List.append_cancel_left heq⟩
    | _ => cases hkind
  | .number n =>
    cases h' with
    | number n' =>
      obtain ⟨rfl, hrest⟩ := numeral_append_inj heq hrest hrest'
      exact ⟨rfl, hrest⟩
    | _ => cases hkind
  | .string text =>
    cases h' with
    | string text' =>
      obtain ⟨htext, hrest⟩ := Literal.quote_append_inj heq
      exact ⟨congrArg Tree.string (String.toList_inj.1 htext), hrest⟩
    | _ => cases hkind
  | .empty =>
    cases h' with
    | empty => exact ⟨rfl, List.append_cancel_left heq⟩
    | list hitem htail =>
      simp only [List.cons_append, List.nil_append, List.append_assoc, List.cons.injEq, true_and]
        at heq
      exact absurd heq.symm hitem.ne_closing
    | _ => cases hkind
  | .list hitem htail =>
    cases h' with
    | empty =>
      simp only [List.cons_append, List.nil_append, List.append_assoc, List.cons.injEq, true_and]
        at heq
      exact absurd heq hitem.ne_closing
    | list hitem' htail' =>
      simp only [List.cons_append, List.append_assoc, List.cons.injEq, true_and] at heq
      obtain ⟨rfl, htails⟩ := Item.unique hitem hitem' heq (htail.head rest) (htail'.head rest')
      obtain ⟨rfl, hrest⟩ := Tail.unique htail htail' htails
      exact ⟨rfl, hrest⟩
    | _ => cases hkind
termination_by structural h

/-- The rest of a list is read in one way, too. -/
theorem Tail.unique {trees trees' : List Tree} {s s' rest rest' : List Char} (h : Tail trees s)
    (h' : Tail trees' s') (heq : s ++ rest = s' ++ rest') : trees = trees' ∧ rest = rest' := by
  match h with
  | .close =>
    cases h' with
    | close => exact ⟨rfl, List.append_cancel_left heq⟩
    | next => cases heq
  | .next hitem htail =>
    cases h' with
    | close => cases heq
    | next hitem' htail' =>
      simp only [List.cons_append, List.append_assoc, List.cons.injEq, true_and] at heq
      obtain ⟨rfl, htails⟩ := Item.unique hitem hitem' heq (htail.head rest) (htail'.head rest')
      obtain ⟨rfl, hrest⟩ := Tail.unique htail htail' htails
      exact ⟨rfl, hrest⟩
termination_by structural h

end

/-! ### Rendering -/

/-- The characters behind an element of a list, from the texts of the elements that follow. -/
def tail (texts : List String) : List Char :=
  texts.flatMap (fun text => ',' :: ' ' :: text.toList) ++ [']']

theorem tail_cons (text : String) (texts : List String) :
    tail (text :: texts) = ',' :: ' ' :: (text.toList ++ tail texts) := by
  rw [tail, tail, List.flatMap_cons, List.append_assoc]
  rfl

theorem eq_toString_of_itemText {n : Int} {text : String} (h : (number n).itemText = .ok text) :
    text = toString n := by
  have h : (Numeral.write n).mapError Fault.numeral = .ok text := h
  rw [Numeral.write] at h
  split at h
  · cases h
    rfl
  · cases h

theorem toList_brackets (text : String) (texts : List String) :
    ("[" ++ ", ".intercalate (text :: texts) ++ "]").toList = '[' :: (text.toList ++ tail texts) := by
  have hinside : (", ".intercalate (text :: texts) ++ "]").toList = text.toList ++ tail texts := by
    induction texts generalizing text with
    | nil => rw [String.intercalate_singleton, String.toList_append]; rfl
    | cons next texts ih =>
      have hnext := ih next
      rw [String.toList_append] at hnext
      rw [String.intercalate_cons_cons, String.toList_append, String.toList_append,
        String.toList_append, List.append_assoc, List.append_assoc, hnext]
      simp [tail]
  rw [String.append_assoc, String.toList_append, hinside]
  rfl

mutual

/-- Rendering an element of a list writes by the grammar. -/
theorem item_of_itemText (tree : Tree) {text : String} (h : tree.itemText = .ok text) :
    Item tree text.toList := by
  cases tree with
  | nothing =>
    cases h
    exact .nothing
  | number n =>
    rw [eq_toString_of_itemText h]
    exact .number n
  | string s =>
    cases h
    rw [Literal.ofString, String.toList_ofList]
    exact .string s
  | list elements =>
    obtain ⟨texts, htexts, rfl⟩ := exists_of_render_list h
    cases elements with
    | nil =>
      cases htexts
      exact .empty
    | cons tree rest =>
      rw [renderItems_cons] at htexts
      obtain ⟨text, htext, htexts⟩ := exists_of_bind_eq_ok htexts
      obtain ⟨others, hothers, htexts⟩ := exists_of_bind_eq_ok htexts
      cases htexts
      rw [toList_brackets]
      exact .list (item_of_itemText tree htext) (tail_of_renderItems rest hothers)
  | cycle _ => cases h
  | foreign _ => cases h

/-- So does rendering those behind it. -/
theorem tail_of_renderItems (trees : List Tree) {texts : List String}
    (h : renderItems trees = .ok texts) : Tail trees (tail texts) := by
  cases trees with
  | nil =>
    cases h
    exact .close
  | cons tree rest =>
    rw [renderItems_cons] at h
    obtain ⟨text, htext, h⟩ := exists_of_bind_eq_ok h
    obtain ⟨others, hothers, h⟩ := exists_of_bind_eq_ok h
    cases h
    rw [tail_cons]
    exact .next (item_of_itemText tree htext) (tail_of_renderItems rest hothers)

end

/-- Lists with one text are equal. -/
theorem eq_of_render_list {trees trees' : List Tree} {text : String}
    (h : (list trees).render = .ok text) (h' : (list trees').render = .ok text) :
    trees = trees' := by
  have hitem := item_of_itemText (.list trees) h
  have hitem' := item_of_itemText (.list trees') h'
  have hsame : text.toList ++ [] = text.toList ++ [] := rfl
  obtain ⟨heq, -⟩ := hitem.unique hitem' hsame nofun nofun
  exact Tree.list.inj heq

end Tree

/-! ### Lists -/

namespace Store

/-- The trees of two lists that have texts are lists, and have equal texts if they are equal. -/
theorem tree_eq_iff_render_eq {store store' : Store} {a b : Nat} {text text' : String}
    (h : store.render (.list a) = .ok text) (h' : store'.render (.list b) = .ok text') :
    text = text' ↔ store.tree (.list a) = store'.tree (.list b) := by
  constructor
  · rintro rfl
    obtain ⟨trees, htrees⟩ := exists_tree_list ⟨text, h⟩
    obtain ⟨trees', htrees'⟩ := exists_tree_list ⟨text, h'⟩
    rw [render, htrees] at h
    rw [render, htrees'] at h'
    rw [htrees, htrees', Tree.eq_of_render_list h h']
  · intro heq
    rw [render, heq] at h
    exact Except.ok.inj (h.symm.trans h')

/-- **The texts of lists are unambiguous.**  Two lists that are built from nothing, numbers that can be
written, strings and lists have texts, and one text exactly if they have one tree: as many elements, of
the same kinds, with the same numbers and strings in them.  Where both are in one store, this is to say
that they are the same. -/
theorem render_list_unambiguous {store store' : Store} {a b : Nat} (h : store.Plain (.list a))
    (h' : store'.Plain (.list b)) :
    ∃ text text', store.render (.list a) = .ok text ∧ store'.render (.list b) = .ok text' ∧
      (text = text' ↔ store.tree (.list a) = store'.tree (.list b)) ∧
      (store = store' → (text = text' ↔ store.same (.list a) (.list b) = .ok true)) := by
  obtain ⟨text, htext⟩ := h.exists_render
  obtain ⟨text', htext'⟩ := h'.exists_render
  have htrees := tree_eq_iff_render_eq htext htext'
  refine ⟨text, text', htext, htext', htrees, ?_⟩
  rintro rfl
  rw [same_iff_tree_eq h h']
  exact htrees

/-- Two lists with a number, its text as a string, and a list with a string that looks like the inside
of a list have one text. -/
theorem render_list_unambiguous_lookalikes :
    let inner : Array Value := #[.string "nil, [\"", .nothing]
    let store : Store :=
      ⟨#[#[.number (-1), .string "-1", .list 1], inner, #[.number (-1), .string "-1", .list 3], inner]⟩
    store.Plain (.list 0) ∧ store.Plain (.list 2) ∧
      (∃ text text', store.render (.list 0) = .ok text ∧ store.render (.list 2) = .ok text' ∧
        (text = text' ↔ store.tree (.list 0) = store.tree (.list 2)) ∧
        (store = store → (text = text' ↔ store.same (.list 0) (.list 2) = .ok true))) ∧
      store.render (.list 0) = .ok "[-1, \"-1\", [\"nil, [\\\"\", nil]]" := by
  intro inner store
  have hinner (element : Value) (hmem : element ∈ inner) : store.Plain element := by
    simp only [inner, List.mem_toArray, List.mem_cons, List.not_mem_nil, or_false] at hmem
    rcases hmem with rfl | rfl
    · exact .string _
    · exact .nothing
  have houter (inside : Nat) (hinside : store.elements inside = inner) (element : Value)
      (hmem : element ∈ #[.number (-1), .string "-1", .list inside]) : store.Plain element := by
    simp only [List.mem_toArray, List.mem_cons, List.not_mem_nil, or_false] at hmem
    rcases hmem with rfl | rfl | rfl
    · exact .number (Numeral.lt_bound (by decide))
    · exact .string _
    · exact .list (hinside ▸ hinner)
  have hfirst : store.Plain (.list 0) := .list (houter 1 rfl)
  have hsecond : store.Plain (.list 2) := .list (houter 3 rfl)
  exact ⟨hfirst, hsecond, render_list_unambiguous hfirst hsecond, by decide +kernel⟩

end Store

end Pipeline
