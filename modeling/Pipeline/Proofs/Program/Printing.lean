import Pipeline.Proofs.Expr.Printing
import Pipeline.Proofs.Program.Blocks
import Pipeline.Proofs.Statement.Splitting

/-!
# Writing a program

A program is written on as many lines as its listing has entries: for a statement its command, a
blank, and its arguments with commas between them, and for nothing a terminator.  Each phase of the
reader undoes one step of this, and the lemmas below go from the inside to the outside:

* `Expr.isArgument_source`: a written tree can be an argument;
* `Arguments.split_joined`: the arguments of a line are found again;
* `Statement.gives_source`: a line gives its statement, with the number of the line;
* `Statement.readLinesFrom_lineSource`: the lines of a listing give its statements;
* `Program.listed_entriesFrom`: these statements list the same program, its lines numbered anew.

Main statement: a well-formed program whose statements can be written is read back from its text,
with every statement at the line on which the text has it.
-/

namespace Pipeline

open Text

/-! ### The arguments of a line -/

theorem joined_one (t : Expr) : joined [','] ([t].map Expr.source) = t.source :=
  List.intercalate_singleton

theorem joined_more (t u : Expr) (args : List Expr) :
    joined [','] ((t :: u :: args).map Expr.source) =
      t.source ++ ([','] ++ joined [','] ((u :: args).map Expr.source)) := by
  rw [← List.append_assoc]
  exact List.intercalate_cons_cons

theorem tight_joined {args : List Expr} (hne : args ≠ []) (h : ∀ t ∈ args, t.Writable) :
    Tight (joined [','] (args.map Expr.source)) := by
  induction args with
  | nil => exact absurd rfl hne
  | cons t args ih =>
    have ht := Expr.tight_source (h t List.mem_cons_self)
    cases args with
    | nil =>
      rw [joined_one]
      exact ht
    | cons u args =>
      have hrest := ih (List.cons_ne_nil u args) (fun v hv => h v (List.mem_cons_of_mem t hv))
      rw [joined_more]
      exact ht.around [','] hrest

theorem newline_not_mem_joined {args : List Expr} (h : ∀ t ∈ args, t.Writable) :
    '\n' ∉ joined [','] (args.map Expr.source) := by
  induction args with
  | nil => exact List.not_mem_nil
  | cons t args ih =>
    have ht := Expr.newline_not_mem_source (h t List.mem_cons_self)
    have hrest := ih (fun u hu => h u (List.mem_cons_of_mem t hu))
    cases args with
    | nil =>
      rw [joined_one]
      exact ht
    | cons u args =>
      rw [joined_more]
      intro hmem
      rcases List.mem_append.1 hmem with hmem | hmem
      · exact ht hmem
      · rcases List.mem_cons.1 hmem with hcomma | hmem
        · cases hcomma
        · exact hrest hmem

section Undivided

open Arguments

variable {divider : Char} (hdivider : divider = ',' ∨ divider = ')') {rest : List Char}

include hdivider

theorem undivided_plain_append {s : List Char} (h : ∀ c ∈ s, IsPlain c)
    (hrest : Undivided divider rest) : Undivided divider (s ++ rest) := by
  induction s with
  | nil => exact hrest
  | cons c s ih =>
    obtain ⟨⟨-, hquote, hopen, hclose, hcomma⟩, hs⟩ := List.forall_mem_cons.1 h
    refine .other hquote hopen ?_ (ih hs)
    rcases hdivider with rfl | rfl
    · exact hcomma
    · exact hclose

theorem Operand.undivided_source_append {o : Operand} (h : o.Writable)
    (hrest : Undivided divider rest) : Undivided divider (o.source ++ rest) := by
  -- a variable, a number, a string
  obtain ⟨_ | _ | _, text⟩ := o
  · refine undivided_plain_append hdivider (List.forall_mem_cons.2 ⟨?_, fun c hc => ?_⟩) hrest
    · exact ⟨by decide, by decide, by decide, by decide, by decide⟩
    · exact isPlain_of_isNameChar (h.2 c hc)
  · exact undivided_plain_append hdivider
      (fun c hc => isPlain_of_isNameChar (isNameChar_of_isLatinDigit (h.2 c hc))) hrest
  · show Undivided divider (Literal.quote text.toList ++ rest)
    rw [quote_eq, List.cons_append, List.append_assoc]
    exact .string (inside_literal text.toList) hrest

/-- The source of a tree has no character outside of parentheses that could divide it. -/
theorem Expr.undivided_source_append {t : Expr} (h : t.Writable) (hrest : Undivided divider rest) :
    Undivided divider (t.source ++ rest) := by
  induction t generalizing divider rest with
  | operand o => exact o.undivided_source_append hdivider h hrest
  | binary symbol left right ihl ihr =>
    obtain ⟨⟨op, rfl⟩, hleft, hright⟩ := h
    have hinside : Undivided ')' (left.source ++ (op.symbol.toList ++ (right.source ++ []))) :=
      ihl (.inr rfl) hleft (undivided_plain_append (.inr rfl) (isPlain_symbol op)
        (ihr (.inr rfl) hright .nil))
    have hgroup := Undivided.group hinside hrest
    simpa [source] using hgroup

end Undivided

/-- The source of a tree can be an argument. -/
theorem Expr.isArgument_source {t : Expr} (h : t.Writable) : Arguments.IsArgument t.source := by
  have hundivided := undivided_source_append (.inl rfl) h .nil
  rw [List.append_nil] at hundivided
  exact ⟨(tight_source h).trim_eq, hundivided⟩

namespace Arguments

/-- **The arguments of a line are found again.** -/
theorem split_joined {args : List Expr} (h : ∀ t ∈ args, t.Writable) :
    split (joined [','] (args.map Expr.source)) = .ok (args.map Expr.source) := by
  by_cases hargs : args = []
  · subst hargs
    rfl
  · have hfull : ∀ arg ∈ args.map Expr.source, arg ≠ [] ∧ IsArgument arg :=
      List.forall_mem_map.2 fun t ht =>
        ⟨(Expr.tight_source (h t ht)).ne_nil, Expr.isArgument_source (h t ht)⟩
    have hne : args.map Expr.source ≠ [] := fun heq => hargs (List.map_eq_nil_iff.1 heq)
    refine split_joined_of_isArgument hne (fun heq => ?_) fun arg harg => (hfull arg harg).2
    rw [heq] at hfull
    exact (hfull [] List.mem_cons_self).1 rfl

end Arguments

/-! ### The lines of statements -/

/-- A command word: it is in lower case, and no comment begins with it. -/
structure IsCommand (command : String) : Prop where
  word : IsWord command.toList
  lower_eq : lower command.toList = command.toList
  not_comment : command.toList.head? ≠ some '#'

instance (command : String) : Decidable (IsCommand command) :=
  decidable_of_iff (IsWord command.toList ∧ lower command.toList = command.toList ∧
      command.toList.head? ≠ some '#')
    ⟨fun ⟨hword, hlower, hcomment⟩ => ⟨hword, hlower, hcomment⟩,
      fun ⟨hword, hlower, hcomment⟩ => ⟨hword, hlower, hcomment⟩⟩

namespace Statement

/-- The line of a statement. -/
def source (s : Statement) : List Char :=
  s.command.toList ++ ' ' :: joined [','] (s.args.map Expr.source)

/-- The statements that can be written. -/
structure Writable (s : Statement) : Prop where
  command : IsCommand s.command
  args : ∀ t ∈ s.args, t.Writable

/-- The same statement on another line. -/
def placed (s : Statement) (line : Int) : Statement :=
  { s with line := line }

theorem source_placed (s : Statement) (line : Int) : (s.placed line).source = s.source := rfl

/-- What it means that a line holds a statement and nothing else. -/
def Gives (settings : Settings) (raw : List Char) (s : Statement) : Prop :=
  isIdle (trim raw) = false ∧ readLine settings s.line (trim raw) = .ok s

variable {settings : Settings}

theorem readArgs_source {args : List Expr} (h : ∀ t ∈ args, t.Writable) (line : Int)
    (number : Nat) : readArgs settings line number (args.map Expr.source) = .ok args := by
  induction args generalizing number with
  | nil => rfl
  | cons t args ih =>
    have ht := h t List.mem_cons_self
    have hfull : ¬t.source.isEmpty = true := by
      rw [List.isEmpty_iff]
      exact (Expr.tight_source ht).ne_nil
    rw [List.map_cons, readArgs, if_neg hfull, Expr.ofText_source ht,
      ih (fun u hu => h u (List.mem_cons_of_mem t hu))]
    rfl

/-- A trimmed line gives the statement of its word and its arguments. -/
theorem readLine_of_cutWord {body text : List Char} {s : Statement} (h : s.Writable)
    (htrim : trim body = body) (hcut : cutWord body = (s.command.toList, text))
    (htext : text = joined [','] (s.args.map Expr.source)) :
    readLine settings s.line body = .ok s := by
  have hparts : splitLine body = (s.command.toList, text) := by
    rw [splitLine, htrim, hcut, h.command.lower_eq]
  rw [readLine, hparts, htext, Arguments.split_joined h.args]
  show (readArgs settings s.line 0 (s.args.map Expr.source)).bind _ = _
  rw [readArgs_source h.args]
  show Except.ok (Statement.mk s.line (String.ofList s.command.toList) s.args) = Except.ok s
  rw [String.ofList_toList]

theorem isIdle_append {command : String} (h : IsCommand command) (rest : List Char) :
    isIdle (command.toList ++ rest) = false := by
  obtain ⟨c, word, hword⟩ := List.exists_cons_of_ne_nil h.word.ne_nil
  have hc : c ≠ '#' := by
    rintro rfl
    exact h.not_comment (by rw [hword, List.head?_cons])
  rw [hword]
  show (c == '#') = false
  rw [beq_eq_false_iff_ne]
  exact hc

/-- A line with a command word alone gives a statement without arguments. -/
theorem gives_command {command : String} (h : IsCommand command) (line : Int) :
    Gives settings command.toList ⟨line, command, []⟩ := by
  have hidle := isIdle_append h []
  rw [List.append_nil] at hidle
  rw [Gives, h.word.tight.trim_eq]
  exact ⟨hidle, readLine_of_cutWord ⟨h, fun t ht => nomatch ht⟩ h.word.tight.trim_eq
    h.word.cutWord_eq rfl⟩

/-- **The line of a statement gives the statement.** -/
theorem gives_source {s : Statement} (h : s.Writable) : Gives settings s.source s := by
  cases hargs : s.args with
  | nil =>
    have hsource : s.source = s.command.toList ++ [' '] := by
      rw [source, hargs]
      rfl
    have hs : s = ⟨s.line, s.command, []⟩ := by
      rw [← hargs]
    have hgives : Gives settings s.command.toList ⟨s.line, s.command, []⟩ :=
      gives_command h.command s.line
    rw [← hs, Gives, h.command.word.tight.trim_eq] at hgives
    rw [Gives, hsource, h.command.word.tight.trim_append_blank]
    exact hgives
  | cons t args =>
    have hne : s.args ≠ [] := by
      rw [hargs]
      exact List.cons_ne_nil t args
    have htext := tight_joined hne h.args
    have htight : Tight s.source := h.command.word.tight.around [' '] htext
    rw [Gives, htight.trim_eq]
    exact ⟨isIdle_append h.command _, readLine_of_cutWord h htight.trim_eq
      (h.command.word.cutWord_append htext) rfl⟩

theorem newline_not_mem_source {s : Statement} (h : s.Writable) : '\n' ∉ s.source := by
  intro hmem
  rcases List.mem_append.1 hmem with hmem | hmem
  · exact h.command.word.newline_not_mem hmem
  · rcases List.mem_cons.1 hmem with hblank | hmem
    · cases hblank
    · exact newline_not_mem_joined h.args hmem

/-! ### The lines of a listing -/

/-- The line of an entry of a listing. -/
def lineSource (settings : Settings) : Option Statement → List Char
  | some s => s.source
  | none => settings.terminator.toList

/-- The statement that an entry of a listing is read as. -/
def ofEntry (settings : Settings) (line : Nat) : Option Statement → Statement
  | some s => s.placed line
  | none => ⟨line, settings.terminator, []⟩

/-- The statements that the entries of a listing are read as; the first one has the given line. -/
def entriesFrom (settings : Settings) : (line : Nat) → List (Option Statement) → List Statement
  | _, [] => []
  | line, entry :: entries => ofEntry settings line entry :: entriesFrom settings (line + 1) entries

theorem entriesFrom_append (line : Nat) (a b : List (Option Statement)) :
    entriesFrom settings line (a ++ b) =
      entriesFrom settings line a ++ entriesFrom settings (line + a.length) b := by
  induction a generalizing line with
  | nil => rfl
  | cons entry a ih =>
    rw [List.cons_append, entriesFrom, entriesFrom, ih, List.length_cons, List.cons_append,
      Nat.add_right_comm, Nat.add_assoc]

theorem getElem?_entriesFrom (line : Nat) (entries : List (Option Statement)) (i : Nat) :
    (entriesFrom settings line entries)[i]? = entries[i]?.map (ofEntry settings (line + i)) := by
  induction entries generalizing line i with
  | nil => rfl
  | cons entry entries ih =>
    cases i with
    | zero => rfl
    | succ i =>
      rw [entriesFrom, List.getElem?_cons_succ, List.getElem?_cons_succ, ih, Nat.add_right_comm,
        Nat.add_assoc]

theorem gives_lineSource (hterminator : IsCommand settings.terminator) {entry : Option Statement}
    (h : ∀ s, entry = some s → s.Writable) (line : Nat) :
    Gives settings (lineSource settings entry) (ofEntry settings line entry) := by
  cases entry with
  | none => exact gives_command hterminator line
  | some s =>
    have hplaced : (s.placed line).Writable := ⟨(h s rfl).command, (h s rfl).args⟩
    rw [lineSource, ofEntry, ← source_placed s line]
    exact gives_source hplaced

/-- **The lines of a listing give its statements**, each with the number of its line. -/
theorem readLinesFrom_lineSource (hterminator : IsCommand settings.terminator)
    {entries : List (Option Statement)} (h : ∀ s, some s ∈ entries → s.Writable) (line : Nat) :
    readLinesFrom settings line (entries.map (lineSource settings)) =
      .ok (entriesFrom settings line entries) := by
  induction entries generalizing line with
  | nil => rfl
  | cons entry entries ih =>
    have hentry : ∀ s, entry = some s → s.Writable := by
      rintro s rfl
      exact h s List.mem_cons_self
    obtain ⟨hidle, hread⟩ := gives_lineSource hterminator hentry line
    have hline : (ofEntry settings line entry).line = line := by
      cases entry <;> rfl
    rw [hline] at hread
    rw [List.map_cons, readLinesFrom, if_neg (by simp [hidle]), hread,
      ih (fun s hs => h s (List.mem_cons_of_mem entry hs))]
    rfl

end Statement

/-! ### Programs with their lines -/

mutual

/-- A node whose first line is the given one. -/
def Node.placedAt (line : Nat) : Node → Node
  | .simple s => .simple (s.placed line)
  | .block s body => .block (s.placed line) (Program.placedFrom (line + 1) body)

/-- A program whose first line is the given one. -/
def Program.placedFrom (line : Nat) : List Node → List Node
  | [] => []
  | node :: rest =>
    node.placedAt line ::
      Program.placedFrom (line + (node.listing (Program.continues rest)).length) rest

end

mutual

/-- A node without its lines. -/
def Node.withoutLines : Node → Node
  | .simple s => .simple (s.placed 0)
  | .block s body => .block (s.placed 0) (Program.withoutLines body)

/-- A program without its lines. -/
def Program.withoutLines : List Node → List Node
  | [] => []
  | node :: rest => node.withoutLines :: Program.withoutLines rest

end

namespace Program

variable {settings : Settings}

theorem placedFrom_simple (line : Nat) (s : Statement) (rest : List Node) :
    placedFrom line (.simple s :: rest) =
      .simple (s.placed line) :: placedFrom (line + 1) rest := rfl

theorem placedFrom_block (line : Nat) (s : Statement) (body rest : List Node) :
    placedFrom line (.block s body :: rest) =
      .block (s.placed line) (placedFrom (line + 1) body) ::
        placedFrom (line + 1 + ((listing body).length +
          (if continues rest then [] else [(none : Option Statement)]).length)) rest := by
  rw [placedFrom, Node.placedAt, Node.listing, List.length_cons, List.length_append,
    Nat.add_assoc line 1, Nat.add_comm 1]

theorem continues_placedFrom (line : Nat) (nodes : List Node) :
    continues (placedFrom line nodes) = continues nodes := by
  cases nodes with
  | nil => rfl
  | cons node rest => cases node <;> rfl

/-- The number of a line is no matter of the grammar. -/
theorem wellFormed_placedFrom {afterBranch : Bool} {nodes : List Node}
    (h : WellFormed settings afterBranch nodes) (line : Nat) :
    WellFormed settings afterBranch (placedFrom line nodes) := by
  induction h generalizing line with
  | nil afterBranch => exact .nil afterBranch
  | simple hopens hne _ ih =>
    rw [placedFrom_simple]
    exact .simple hopens hne (ih _)
  | block hopens hne hcontinuation _ _ ihbody ihrest =>
    rw [placedFrom_block]
    exact .block hopens hne hcontinuation (ihbody _) (ihrest _)

theorem nesting_placedFrom {afterBranch : Bool} {nodes : List Node}
    (h : WellFormed settings afterBranch nodes) (line : Nat) :
    nesting (placedFrom line nodes) = nesting nodes := by
  induction h generalizing line with
  | nil => rfl
  | simple _ _ _ ih => rw [placedFrom_simple, nesting_simple, nesting_simple, ih]
  | block _ _ _ _ _ ihbody ihrest =>
    rw [placedFrom_block, nesting_block, nesting_block, ihbody, ihrest]

theorem withoutLines_placedFrom {afterBranch : Bool} {nodes : List Node}
    (h : WellFormed settings afterBranch nodes) (line : Nat) :
    withoutLines (placedFrom line nodes) = withoutLines nodes := by
  induction h generalizing line with
  | nil => rfl
  | simple _ _ _ ih =>
    rw [placedFrom_simple, withoutLines, withoutLines, ih]
    rfl
  | block _ _ _ _ _ ihbody ihrest =>
    rw [placedFrom_block, withoutLines, withoutLines, ihrest, Node.withoutLines,
      Node.withoutLines, ihbody]
    rfl

/-- **The statements of the lines list the program**, with the numbers of its lines. -/
theorem listed_entriesFrom {afterBranch : Bool} {nodes : List Node}
    (h : WellFormed settings afterBranch nodes) (line : Nat) :
    (Statement.entriesFrom settings line (listing nodes)).map (·.listed settings) =
      listing (placedFrom line nodes) := by
  -- the cases are those of the listing, and every piece of it starts where the one before ends
  induction h generalizing line with
  | nil => rfl
  | @simple afterBranch s rest _ hne _ ih =>
    have hs : (s.placed line).listed settings = some (s.placed line) := listed_eq_some.2 ⟨rfl, hne⟩
    rw [placedFrom_simple, listing_simple, listing_simple, Statement.entriesFrom, List.map_cons, ih,
      Statement.ofEntry, hs]
  | @block afterBranch s body rest _ hne _ _ _ ihbody ihrest =>
    have hs : (s.placed line).listed settings = some (s.placed line) := listed_eq_some.2 ⟨rfl, hne⟩
    -- where a continuation follows there is no line for a terminator
    have hclosing (n : Nat) : (Statement.entriesFrom settings n
        (if continues rest then [] else [none])).map (·.listed settings) =
          if continues rest then [] else [none] := by
      cases continues rest with
      | true => rfl
      | false => exact congrArg (fun entry => [entry]) (listed_eq_none.2 rfl)
    rw [placedFrom_block, listing_block, listing_block, continues_placedFrom, Statement.entriesFrom,
      List.map_cons, Statement.entriesFrom_append, Statement.entriesFrom_append, List.map_append,
      List.map_append, ihbody, hclosing, ihrest, Statement.ofEntry, hs, Nat.add_assoc (line + 1)]

/-! ### Whole programs -/

/-- The text of a program. -/
def source (settings : Settings) (nodes : List Node) : String :=
  String.ofList (joined ['\n'] ((listing nodes).map (Statement.lineSource settings)))

theorem listing_ne_nil (node : Node) (rest : List Node) : listing (node :: rest) ≠ [] := by
  cases node with
  | simple s => exact List.cons_ne_nil _ _
  | block s body => exact List.cons_ne_nil _ _

theorem lines_source (hterminator : IsCommand settings.terminator) {nodes : List Node}
    (hne : listing nodes ≠ []) (h : ∀ s, some s ∈ listing nodes → s.Writable) :
    lines (source settings nodes).toList =
      (listing nodes).map (Statement.lineSource settings) := by
  have hlines : ∀ line ∈ (listing nodes).map (Statement.lineSource settings), '\n' ∉ line := by
    intro line hline
    obtain ⟨entry, hentry, rfl⟩ := List.mem_map.1 hline
    cases entry with
    | none => exact hterminator.word.newline_not_mem
    | some s => exact Statement.newline_not_mem_source (h s hentry)
  rw [source, String.toList_ofList]
  exact List.splitOn_intercalate '\n' hlines (fun hnil => hne (List.map_eq_nil_iff.1 hnil))

theorem readLines_source (hterminator : IsCommand settings.terminator) {nodes : List Node}
    (h : ∀ s, some s ∈ listing nodes → s.Writable) :
    Statement.readLines settings (lines (source settings nodes).toList) =
      .ok (Statement.entriesFrom settings 1 (listing nodes)) := by
  cases nodes with
  | nil =>
    -- the empty program is written as one blank line
    rw [source, String.toList_ofList]
    rfl
  | cons node rest =>
    rw [lines_source hterminator (listing_ne_nil node rest) h]
    exact Statement.readLinesFrom_lineSource hterminator h 1

/-- **A written program is read back.**  Whatever the settings are, as long as their terminator is a
command word and branches can be written under them, the text of a well-formed program gives the same
program, and the line of every statement is the place of its line in the text. -/
theorem exists_ofText_source (hs : HasBranches settings)
    (hterminator : IsCommand settings.terminator) {nodes : List Node}
    (hwf : WellFormed settings false nodes) (hnesting : nesting nodes ≤ settings.maxDepth)
    (h : ∀ s, some s ∈ listing nodes → s.Writable) :
    ∃ read, ofText settings (source settings nodes) = .ok read ∧
      withoutLines read = withoutLines nodes ∧
      ∀ (i : Nat) (s : Statement), (listing read)[i]? = some (some s) →
        s.line = i + 1 ∧ (lines (source settings nodes).toList)[i]? = some s.source := by
  refine ⟨placedFrom 1 nodes, ?_, withoutLines_placedFrom hwf 1, ?_⟩
  · rw [ofText, readLines_source hterminator h]
    have hdepth : nesting (placedFrom 1 nodes) ≤ settings.maxDepth := by
      rw [nesting_placedFrom hwf]
      exact hnesting
    exact build_of_wellFormed hs (wellFormed_placedFrom hwf 1) hdepth (listed_entriesFrom hwf 1)
  · intro i s hplace
    rw [← listed_entriesFrom hwf 1, List.getElem?_map, Statement.getElem?_entriesFrom,
      Option.map_map, Option.map_eq_some_iff] at hplace
    obtain ⟨entry, hentry, hlisted⟩ := hplace
    have hne : listing nodes ≠ [] := List.ne_nil_of_mem (List.mem_of_getElem? hentry)
    rw [lines_source hterminator hne h, List.getElem?_map, hentry]
    obtain ⟨rfl, hcommand⟩ := listed_eq_some.1 hlisted
    cases entry with
    | none => exact absurd rfl hcommand
    | some t =>
      refine ⟨?_, rfl⟩
      show ((1 + i : Nat) : Int) = i + 1
      omega

/-- A chain of two branches is read back, the first one with a condition whose text holds a quote, a
comma, a closing parenthesis and a line feed. -/
theorem exists_ofText_source_chain :
    let text := Expr.operand ⟨.string, "\",)\n#"⟩
    let condition := Expr.binary "&" (.operand ⟨.variable, "x"⟩) text
    let nodes := [Node.block ⟨0, "if", [condition]⟩ [.simple ⟨0, "print", [text, text]⟩],
      .block ⟨0, "else", []⟩ []]
    HasBranches {} ∧ IsCommand "end" ∧ WellFormed {} false nodes ∧
      ∃ read, ofText {} (source {} nodes) = .ok read ∧ withoutLines read = withoutLines nodes := by
  intro text condition nodes
  have hif : IsCommand "if" := by decide +kernel
  have hprint : IsCommand "print" := by decide +kernel
  have helse : IsCommand "else" := by decide +kernel
  have hend : IsCommand "end" := by decide +kernel
  have hcondition : condition.Writable :=
    ⟨⟨.and, rfl⟩, ⟨by decide, List.all_eq_true.1 (by decide)⟩, trivial⟩
  have hwf : WellFormed {} false nodes := by
    refine .block rfl (by decide) (fun h => absurd h (by decide)) ?_ ?_
    · exact .simple rfl (by decide) (.nil _)
    · exact .block rfl (by decide) (fun _ => rfl) (.nil _) (.nil _)
  have hwritable : ∀ s, some s ∈ listing nodes → s.Writable := by
    have hlisting : listing nodes = [some ⟨0, "if", [condition]⟩, some ⟨0, "print", [text, text]⟩,
        some ⟨0, "else", []⟩, none] := rfl
    intro s hmem
    rw [hlisting] at hmem
    simp only [List.mem_cons, Option.some.injEq, reduceCtorEq, List.not_mem_nil, or_false] at hmem
    rcases hmem with rfl | rfl | rfl
    · exact ⟨hif, by simpa using hcondition⟩
    · exact ⟨hprint, fun t ht => by simp_all [Expr.Writable, Operand.Writable, text]⟩
    · exact ⟨helse, by simp⟩
  obtain ⟨read, hread, hsame, -⟩ :=
    exists_ofText_source hasBranches_default hend hwf (by decide) hwritable
  exact ⟨hasBranches_default, hend, hwf, read, hread, hsame⟩

end Program

end Pipeline
