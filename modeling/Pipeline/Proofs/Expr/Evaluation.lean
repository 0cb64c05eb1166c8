import Pipeline.Expr.Eval
import Pipeline.Proofs.Expr.Printing
import Pipeline.Proofs.Faults

/-!
# Evaluation

What comes of a tree that can be written, when the variables hold values of the language.  A value of
the language comes of it, or a fault of the script, with one exception: a number in the tree may have
more digits than a numeral can have.

* `Numeral.read_of_digits` : Latin digits are the number they write, unless there are too many of
  them.
* `Expr.eval_sound` : the two ways in which an evaluation ends.
-/

namespace Pipeline

/-! ### Values of the language -/

/-- A value of the language, and no object that a host handed in. -/
def Value.IsScript : Value → Prop
  | .foreign _ => False
  | _ => True

theorem Value.IsScript.exists_kind {value : Value} (h : value.IsScript) :
    ∃ kind, value.kind = .ok kind := by
  cases value with
  | foreign shown => exact h.elim
  | _ => exact ⟨_, rfl⟩

/-! ### Numerals -/

namespace Numeral

open Text

theorem digitValue?_of_isLatinDigit {c : Char} (h : isLatinDigit c = true) :
    digitValue? c = some (c.toNat - 0x30) := by
  simp only [isLatinDigit, Bool.and_eq_true, decide_eq_true_eq] at h
  have hfrom : 0x30 ≤ c.toNat := h.1
  have hto : c.toNat ≤ 0x39 := h.2
  rw [digitValue?, zeroDigits, List.find?_cons_of_pos]
  · rfl
  · simp only [Bool.and_eq_true, decide_eq_true_eq]
    omega

theorem ne_of_isLatinDigit {c d : Char} (h : isLatinDigit c = true) (hd : isLatinDigit d = false) :
    c ≠ d := by
  rintro rfl
  rw [h] at hd
  cases hd

/-- The values of Latin digits. -/
theorem digits?_of_digits {s : List Char} (hne : s ≠ []) (h : ∀ c ∈ s, isLatinDigit c = true) :
    digits? s = some (s.map fun c => c.toNat - 0x30) := by
  fun_induction digits? s with
  | case1 => exact absurd rfl hne
  | case2 c =>
    rw [digitValue?_of_isLatinDigit (h c List.mem_cons_self)]
    rfl
  | case3 c rest =>
    have hunderscore := h '_' (List.mem_cons_of_mem _ List.mem_cons_self)
    exact absurd rfl (ne_of_isLatinDigit hunderscore (by decide))
  | case4 c rest hone _ ih =>
    have hrest := ih hone fun d hd => h d (List.mem_cons_of_mem _ hd)
    rw [digitValue?_of_isLatinDigit (h c List.mem_cons_self), hrest]
    rfl

/-- Latin digits write a number as the library reads them. -/
theorem ofDigits_map (s : List Char) :
    ofDigits (s.map fun c => c.toNat - 0x30) = Nat.ofDigitChars 10 s 0 := by
  rw [ofDigits, List.foldl_map]
  rfl

theorem isSpace_of_isLatinDigit {c : Char} (h : isLatinDigit c = true) : isSpace c = false := by
  have hblank := (isPlain_of_isNameChar (isNameChar_of_isLatinDigit h)).1
  rw [isBlank, Bool.or_eq_false_iff] at hblank
  exact hblank.1

theorem trimWith_of_digits {s : List Char} (h : ∀ c ∈ s, isLatinDigit c = true) :
    trimWith isSpace s = s := by
  have hfront : ∀ c ∈ s.head?, isSpace c = false := fun c hc =>
    isSpace_of_isLatinDigit (h c (List.mem_of_mem_head? hc))
  have hback : ∀ c ∈ s.reverse.head?, isSpace c = false := fun c hc =>
    isSpace_of_isLatinDigit (h c (List.mem_reverse.1 (List.mem_of_mem_head? hc)))
  rw [trimWith, dropWhile_eq_self hfront, dropWhile_eq_self hback, List.reverse_reverse]

/-- Latin digits are the number that they write, unless there are more of them than a numeral can
have. -/
theorem read_of_digits {s : List Char} (hne : s ≠ []) (h : ∀ c ∈ s, isLatinDigit c = true) :
    (s.length ≤ digitLimit → read s = .ok (Nat.ofDigitChars 10 s 0 : Nat)) ∧
      (digitLimit < s.length → read s = .error .tooLong) := by
  have hread : read s = (readNat s).map Int.ofNat := by
    rw [read, trimWith_of_digits h]
    split
    · exact absurd rfl (ne_of_isLatinDigit (h '-' List.mem_cons_self) (by decide))
    · exact absurd rfl (ne_of_isLatinDigit (h '+' List.mem_cons_self) (by decide))
    · cases readNat s <;> rfl
  rw [hread, readNat, digits?_of_digits hne h]
  dsimp only
  rw [List.length_map, ofDigits_map]
  constructor
  · intro hle
    rw [if_pos hle]
    rfl
  · intro hlt
    rw [if_neg (Nat.not_le.2 hlt)]
    rfl

end Numeral

/-! ### Trees -/

namespace Expr

/-- The operands of a tree, from left to right. -/
def operands : Expr → List Operand
  | .operand o => [o]
  | .binary _ left right => left.operands ++ right.operands

/-- A number of a tree has more digits than a numeral can have. -/
def HasLongNumber (t : Expr) : Prop :=
  ∃ digits, ⟨.number, digits⟩ ∈ t.operands ∧ Numeral.digitLimit < digits.length

/-- What may come of an evaluation: a value of the language, a fault of the script that has no place
yet, or the fault of a number that is too long. -/
def Evaluates (t : Expr) : Except Fault Value → Prop
  | .ok value => value.IsScript
  | .error fault => fault.isScript = true ∨ fault = .numeral .tooLong ∧ t.HasLongNumber

/-- The variables of a table hold values of the language. -/
def ScriptBindings (bindings : Table Value) : Prop :=
  ∀ name value, bindings.find? name = some value → value.IsScript

theorem operandNumber_sound {symbol : String} {value : Value} {fault : Fault} (hvalue : value.IsScript)
    (h : operandNumber symbol value = .error fault) : fault.isScript = true := by
  cases value with
  | number n => cases h
  | foreign shown => exact hvalue.elim
  | _ => cases h; rfl

/-- A number token that is too long has no value. -/
theorem eval_of_long {digits : String} (h : Operand.Writable ⟨.number, digits⟩)
    (hlimit : Numeral.digitLimit < digits.length) (strict : Bool) (bindings : Table Value) :
    (operand ⟨.number, digits⟩).eval strict bindings = .error (.numeral .tooLong) := by
  have hread : Numeral.read digits.toList = .error .tooLong := (Numeral.read_of_digits h.1 h.2).2 hlimit
  rw [eval, hread]

/-- A fault of a part of a tree is one of the tree. -/
theorem Evaluates.of_part {part t : Expr} {fault : Fault}
    (hpart : ∀ o ∈ part.operands, o ∈ t.operands) (h : part.Evaluates (.error fault)) :
    t.Evaluates (.error fault) := by
  rcases h with hscript | ⟨rfl, digits, hmem, hlimit⟩
  · exact .inl hscript
  · exact .inr ⟨rfl, digits, hpart _ hmem, hlimit⟩

/-- An evaluation ends in one of the two ways. -/
theorem eval_sound {t : Expr} (ht : t.Writable) {bindings : Table Value}
    (hbindings : ScriptBindings bindings) (strict : Bool) :
    t.Evaluates (t.eval strict bindings) := by
  induction t with
  | operand o =>
    -- a variable, a number, a string
    obtain ⟨_ | _ | _, text⟩ := o
    · rw [eval]
      cases hfind : bindings.find? text with
      | some value => exact hbindings text value hfind
      | none =>
        cases strict with
        | true => exact .inl rfl
        | false => exact trivial
    · rcases Nat.lt_or_ge Numeral.digitLimit text.length with hlimit | hlimit
      · rw [eval_of_long ht hlimit]
        exact .inr ⟨rfl, text, List.mem_singleton.2 rfl, hlimit⟩
      · have hread := (Numeral.read_of_digits ht.1 ht.2).1 hlimit
        rw [eval, hread]
        exact trivial
    · exact trivial
  | binary symbol left right ihl ihr =>
    obtain ⟨⟨op, rfl⟩, hleft, hright⟩ := ht
    have ihl := ihl hleft
    have ihr := ihr hright
    rw [eval]
    rcases hx : left.eval strict bindings with fault | x
    · rw [hx] at ihl
      exact ihl.of_part fun o ho => List.mem_append_left _ ho
    rcases hy : right.eval strict bindings with fault | y
    · rw [hy] at ihr
      exact ihr.of_part fun o ho => List.mem_append_right _ ho
    rw [hx] at ihl
    rw [hy] at ihr
    -- Both operands are looked at once both are there.
    show Evaluates _ (operandNumber op.symbol x >>= _)
    rcases ha : operandNumber op.symbol x with fault | a
    · exact .inl (operandNumber_sound ihl ha)
    show Evaluates _ (operandNumber op.symbol y >>= _)
    rcases hb : operandNumber op.symbol y with fault | b
    · exact .inl (operandNumber_sound ihr hb)
    dsimp only [bind, Except.bind]
    rw [Operator.ofSymbol?_symbol]
    dsimp only
    cases op.apply? a b with
    | none => exact .inl rfl
    | some n => exact trivial

end Expr

end Pipeline
