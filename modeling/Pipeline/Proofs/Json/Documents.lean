import Pipeline.Proofs.Json.Strings
import Pipeline.Proofs.Value.Rendering

/-!
# The texts of documents

The text of a document can be read in one way only.  Its first character tells whether a string, an array,
an object or a number begins.  Strings, arrays and objects end at a character of their own, and a number
ends in front of the comma or the line end that follows it in an array or in an object.

* `Json.write_append_inj` : one text is one document, whatever comes behind it.
* `Json.text_injective` : two documents with one text are one.
* `Program.json_injective` : and the document of a program is that of no other program.
-/

namespace Pipeline

namespace Json

/-! ### First characters -/

/-- What a document is. -/
inductive Kind where
  | number
  | string
  | array
  | object
  deriving DecidableEq

/-- The kind of a document. -/
def kind : Json → Kind
  | .number _ => .number
  | .string _ => .string
  | .array _ => .array
  | .object _ => .object

/-- The kind of a document that begins with a character. -/
def kindOf (c : Char) : Kind :=
  if c = '"' then .string
  else if c = '[' then .array
  else if c = '\x7b' then .object
  else .number

/-- The first character of a document tells its kind. -/
theorem write_head (depth : Nat) (d : Json) :
    ∃ c s, d.write depth = c :: s ∧ kindOf c = d.kind := by
  cases d with
  | number n =>
    obtain ⟨c, s, hs⟩ := List.exists_cons_of_ne_nil (Numeral.toList_toString_ne_nil n)
    have hc : Numeral.isNumeralChar c = true :=
      Numeral.isNumeralChar_of_mem (hs ▸ List.mem_cons_self)
    refine ⟨c, s, by rw [write, hs], ?_⟩
    simp only [kindOf, kind]
    rw [if_neg, if_neg, if_neg] <;> rintro rfl <;> exact absurd hc (by decide)
  | string s => exact ⟨'"', _, rfl, rfl⟩
  | array items =>
    cases items <;> rw [write] <;> exact ⟨'[', _, rfl, rfl⟩
  | object fields =>
    cases fields <;> rw [write] <;> exact ⟨'\x7b', _, rfl, rfl⟩

theorem kind_eq_of_write {depth : Nat} {d d' : Json} {rest rest' : List Char}
    (h : d.write depth ++ rest = d'.write depth ++ rest') : d.kind = d'.kind := by
  obtain ⟨c, s, hs, hc⟩ := write_head depth d
  obtain ⟨c', s', hs', hc'⟩ := write_head depth d'
  rw [hs, hs'] at h
  obtain rfl : c = c' := (List.cons.inj h).1
  rw [← hc, hc']

/-! ### Reading in one way -/

/-- Nothing that could belong to a number comes next. -/
def Ends (rest : List Char) : Prop :=
  ∀ c ∈ rest.head?, Numeral.isNumeralChar c = false

theorem ends_newLine (depth : Nat) (rest : List Char) : Ends (newLine depth ++ rest) := by
  intro c hc
  cases hc
  rfl

theorem ends_writeItems (depth outer : Nat) (items : List Json) (rest : List Char) :
    Ends (writeItems depth items ++ (newLine outer ++ rest)) := by
  cases items with
  | nil => rw [writeItems]; exact ends_newLine outer rest
  | cons item items =>
    rw [writeItems]
    intro c hc
    cases hc
    rfl

theorem ends_writeFields (depth outer : Nat) (fields : List (String × Json)) (rest : List Char) :
    Ends (writeFields depth fields ++ (newLine outer ++ rest)) := by
  cases fields with
  | nil => rw [writeFields]; exact ends_newLine outer rest
  | cons field fields =>
    rw [writeFields]
    intro c hc
    cases hc
    rfl

mutual

/-- One text is one document, whatever comes behind it. -/
theorem write_append_inj (depth : Nat) (d d' : Json) {rest rest' : List Char}
    (hrest : Ends rest) (hrest' : Ends rest')
    (h : d.write depth ++ rest = d'.write depth ++ rest') : d = d' ∧ rest = rest' := by
  have hkind := kind_eq_of_write h
  match d with
  | .number n =>
    cases d' with
    | number n' =>
      simp only [write] at h
      obtain ⟨rfl, hsame⟩ := Tree.numeral_append_inj h hrest hrest'
      exact ⟨rfl, hsame⟩
    | _ => cases hkind
  | .string s =>
    cases d' with
    | string s' =>
      simp only [write] at h
      obtain ⟨rfl, hsame⟩ := writeString_append_inj h
      exact ⟨rfl, hsame⟩
    | _ => cases hkind
  | .array [] =>
    cases d' with
    | array items' =>
      cases items' with
      | nil => exact ⟨rfl, List.append_cancel_left h⟩
      | cons item' items' => simp [write, newLine] at h
    | _ => cases hkind
  | .array (item :: items) =>
    cases d' with
    | array items' =>
      cases items' with
      | nil => simp [write, newLine] at h
      | cons item' items' =>
        simp only [write, List.append_assoc, List.append_cancel_left_eq] at h
        obtain ⟨rfl, hitems⟩ := write_append_inj (depth + 1) item item' (ends_writeItems _ _ _ _)
          (ends_writeItems _ _ _ _) h
        obtain ⟨rfl, hend⟩ := writeItems_append_inj (depth + 1) depth items items' hitems
        exact ⟨rfl, List.append_cancel_left hend⟩
    | _ => cases hkind
  | .object [] =>
    cases d' with
    | object fields' =>
      cases fields' with
      | nil => exact ⟨rfl, List.append_cancel_left h⟩
      | cons field' fields' => simp [write, newLine] at h
    | _ => cases hkind
  | .object (field :: fields) =>
    cases d' with
    | object fields' =>
      cases fields' with
      | nil => simp [write, newLine] at h
      | cons field' fields' =>
        simp only [write, List.append_assoc, List.append_cancel_left_eq] at h
        obtain ⟨rfl, hfields⟩ := writeField_append_inj (depth + 1) field field'
          (ends_writeFields _ _ _ _) (ends_writeFields _ _ _ _) h
        obtain ⟨rfl, hend⟩ := writeFields_append_inj (depth + 1) depth fields fields' hfields
        exact ⟨rfl, List.append_cancel_left hend⟩
    | _ => cases hkind
termination_by structural d

/-- The items of an array go on behind a comma, and end at a line end without one. -/
theorem writeItems_append_inj (depth outer : Nat) (items items' : List Json) {rest rest' : List Char}
    (h : writeItems depth items ++ (newLine outer ++ rest) =
      writeItems depth items' ++ (newLine outer ++ rest')) : items = items' ∧ rest = rest' := by
  match items with
  | [] =>
    cases items' with
    | nil => exact ⟨rfl, List.append_cancel_left (List.append_cancel_left h)⟩
    | cons item' items' => simp [writeItems, newLine] at h
  | item :: items =>
    cases items' with
    | nil => simp [writeItems, newLine] at h
    | cons item' items' =>
      simp only [writeItems, List.append_assoc, List.append_cancel_left_eq] at h
      obtain ⟨rfl, hitems⟩ := write_append_inj depth item item' (ends_writeItems _ _ _ _)
        (ends_writeItems _ _ _ _) h
      obtain ⟨rfl, hend⟩ := writeItems_append_inj depth outer items items' hitems
      exact ⟨rfl, hend⟩
termination_by structural items

/-- A field is its name and its value. -/
theorem writeField_append_inj (depth : Nat) (field field' : String × Json) {rest rest' : List Char}
    (hrest : Ends rest) (hrest' : Ends rest')
    (h : writeField depth field ++ rest = writeField depth field' ++ rest') :
    field = field' ∧ rest = rest' := by
  match field with
  | (name, value) =>
    obtain ⟨name', value'⟩ := field'
    simp only [writeField, List.append_assoc] at h
    obtain ⟨rfl, hvalue⟩ := writeString_append_inj h
    obtain ⟨rfl, hend⟩ := write_append_inj depth value value' hrest hrest'
      (List.append_cancel_left hvalue)
    exact ⟨rfl, hend⟩
termination_by structural field

/-- The fields of an object go on and end as the items of an array do. -/
theorem writeFields_append_inj (depth outer : Nat) (fields fields' : List (String × Json))
    {rest rest' : List Char} (h : writeFields depth fields ++ (newLine outer ++ rest) =
      writeFields depth fields' ++ (newLine outer ++ rest')) : fields = fields' ∧ rest = rest' := by
  match fields with
  | [] =>
    cases fields' with
    | nil => exact ⟨rfl, List.append_cancel_left (List.append_cancel_left h)⟩
    | cons field' fields' => simp [writeFields, newLine] at h
  | field :: fields =>
    cases fields' with
    | nil => simp [writeFields, newLine] at h
    | cons field' fields' =>
      simp only [writeFields, List.append_assoc, List.append_cancel_left_eq] at h
      obtain ⟨rfl, hfields⟩ := writeField_append_inj depth field field' (ends_writeFields _ _ _ _)
        (ends_writeFields _ _ _ _) h
      obtain ⟨rfl, hend⟩ := writeFields_append_inj depth outer fields fields' hfields
      exact ⟨rfl, hend⟩
termination_by structural fields

end

/-- Two documents with one text are one document. -/
theorem text_injective {d d' : Json} (h : d.text = d'.text) : d = d' := by
  have hnil : Ends [] := by simp [Ends]
  refine (write_append_inj 0 d d' hnil hnil ?_).1
  rw [String.ofList_inj.1 h]

end Json

/-! ### Programs -/

theorem OperandKind.word_injective {kind kind' : OperandKind} (h : kind.word = kind'.word) :
    kind = kind' := by
  cases kind <;> cases kind' <;> first | rfl | exact absurd h (by decide)

/-- The document of an expression keeps kinds, texts and both sides of every operator. -/
theorem Expr.json_injective {e e' : Expr} (h : e.json = e'.json) : e = e' := by
  induction e generalizing e' with
  | operand o =>
    cases e' with
    | operand o' =>
      obtain ⟨kind, text⟩ := o
      obtain ⟨kind', text'⟩ := o'
      simp only [Expr.json, Json.object.injEq, List.cons.injEq, Prod.mk.injEq, Json.string.injEq,
        true_and, and_true] at h
      obtain ⟨hkind, rfl⟩ := h
      rw [OperandKind.word_injective hkind]
    | binary => simp [Expr.json] at h
  | binary symbol left right ihleft ihright =>
    cases e' with
    | operand => simp [Expr.json] at h
    | binary symbol' left' right' =>
      simp only [Expr.json, Json.object.injEq, List.cons.injEq, Prod.mk.injEq, Json.string.injEq,
        true_and, and_true] at h
      obtain ⟨rfl, hleft, hright⟩ := h
      rw [ihleft hleft, ihright hright]

theorem Statement.jsonFields_injective {s s' : Statement} (h : s.jsonFields = s'.jsonFields) :
    s = s' := by
  simp only [jsonFields, List.cons.injEq, Prod.mk.injEq, Json.number.injEq, Json.string.injEq,
    Json.array.injEq, true_and, and_true] at h
  obtain ⟨hline, hcommand, hargs⟩ := h
  have hargs' := List.map_injective_iff.2 (fun _ _ => Expr.json_injective) hargs
  cases s
  cases s'
  simp_all

mutual

/-- The document of a node has the field of a body if the node has one. -/
theorem Node.json_injective (node node' : Node) (h : node.json = node'.json) : node = node' := by
  match node, node' with
  | .simple s, .simple s' =>
    simp only [Node.json, Json.object.injEq] at h
    rw [Statement.jsonFields_injective h]
  | .simple s, .block s' body' => simp [Node.json, Statement.jsonFields] at h
  | .block s body, .simple s' => simp [Node.json, Statement.jsonFields] at h
  | .block s body, .block s' body' =>
    simp only [Node.json, Json.object.injEq] at h
    obtain ⟨hfields, hbody⟩ := List.append_inj' h rfl
    simp only [List.cons.injEq, Prod.mk.injEq, Json.array.injEq, true_and, and_true] at hbody
    rw [Statement.jsonFields_injective hfields, Node.jsonAll_injective body body' hbody]

theorem Node.jsonAll_injective (nodes nodes' : List Node)
    (h : Node.jsonAll nodes = Node.jsonAll nodes') : nodes = nodes' := by
  match nodes, nodes' with
  | [], [] => rfl
  | [], node' :: rest' => simp [Node.jsonAll] at h
  | node :: rest, [] => simp [Node.jsonAll] at h
  | node :: rest, node' :: rest' =>
    simp only [Node.jsonAll, List.cons.injEq] at h
    rw [Node.json_injective node node' h.1, Node.jsonAll_injective rest rest' h.2]

end

/-- A program is told from its document. -/
theorem Program.json_injective {nodes nodes' : List Node}
    (h : Program.json nodes = Program.json nodes') : nodes = nodes' := by
  simp only [Program.json, Json.array.injEq] at h
  exact Node.jsonAll_injective nodes nodes' h

end Pipeline
