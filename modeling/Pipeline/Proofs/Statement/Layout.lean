import Mathlib.Data.Int.Order.Basic
import Mathlib.Logic.Relation
import Pipeline.Proofs.Statement.Relaxing
import Pipeline.Proofs.Text.Lowering
import Pipeline.Proofs.Text.Trimming

/-!
# Layout

A text can be laid out in other ways: with other idle lines, other margins, other blanks behind the
command words, and other spellings of these.  What is read from a line is its content, the command word
in lower case and the text of the arguments, and the contents of the lines stay as they are; the lines
that hold a statement only get other numbers, in the same order.

* `Text.SameLayout` : two texts that differ in their layout.
* `Statement.filterMap_content?` : such texts have the same contents.
* `Statement.exists_renumbering` : so the lines that hold statements are renumbered.
* `Statement.tracks_readLines` : and the statements are read on the renumbered lines.
-/

namespace Pipeline

namespace Text

/-! ### Changes of the layout -/

/-- A line of blanks, or a comment. -/
inductive IdleLine : List Char → Prop where
  | blank {line : List Char} : Blank line → IdleLine line
  | comment {margin : List Char} (text : List Char) : Blank margin →
      IdleLine (margin ++ '#' :: text)

/-- A line that differs in the blanks around it, in those between the command word and the arguments,
or in the spelling of the command word. -/
inductive SameLine : List Char → List Char → Prop where
  | margins {front front' back back' : List Char} (core : List Char) : Blank front → Blank front' →
      Blank back → Blank back' → SameLine (front ++ (core ++ back)) (front' ++ (core ++ back'))
  | gap {front word between between' : List Char} (args : List Char) : Blank front → IsWord word →
      Blank between → between ≠ [] → Blank between' → between' ≠ [] →
      SameLine (front ++ (word ++ (between ++ args))) (front ++ (word ++ (between' ++ args)))
  | respelled {front word word' rest : List Char} : Blank front → IsWord word → IsWord word' →
      lower word = lower word' → (∀ c ∈ rest.head?, isBlank c = true) →
      SameLine (front ++ (word ++ rest)) (front ++ (word' ++ rest))

/-- One change of the layout. -/
inductive LayoutEdit : List (List Char) → List (List Char) → Prop where
  | insert (before : List (List Char)) {line : List Char} (after : List (List Char)) :
      IdleLine line → LayoutEdit (before ++ after) (before ++ line :: after)
  | delete (before : List (List Char)) {line : List Char} (after : List (List Char)) :
      IdleLine line → LayoutEdit (before ++ line :: after) (before ++ after)
  | change (before : List (List Char)) {line line' : List Char} (after : List (List Char)) :
      SameLine line line' → LayoutEdit (before ++ line :: after) (before ++ line' :: after)

/-- Two texts that differ in their layout: some changes lead from the lines of one to those of the
other. -/
def SameLayout (s s' : String) : Prop :=
  Relation.ReflTransGen LayoutEdit (lines s.toList) (lines s'.toList)

/-! ### Hash signs in lower case -/

theorem lowerChar_eq_hash {c : Char} : lowerChar c = '#' ↔ c = '#' := by
  constructor
  · intro h
    exact eq_of_lowerChar h (by decide) (by decide)
  · rintro rfl
    exact lowerChar_of_isNarrow (.inl (by decide))

theorem head?_lower_eq_hash (c : Char) (rest : List Char) :
    (lower (c :: rest)).head? = some '#' ↔ c = '#' := by
  unfold lower lowerAfter
  dsimp only
  split
  · next hsigma =>
    subst hsigma
    split <;> simp
  · split
    · next hdotted =>
      subst hdotted
      simp
    · simp [lowerChar_eq_hash]

/-- A command word that is respelled does not become a comment, and the other way around. -/
theorem head?_eq_hash_of_lower {word word' : List Char} (h : lower word = lower word') :
    word.head? = some '#' ↔ word'.head? = some '#' := by
  have hempty : lower [] = [] := rfl
  have hhead (word : List Char) : word.head? = some '#' ↔ (lower word).head? = some '#' := by
    cases word with
    | nil => rw [hempty]
    | cons c rest =>
      rw [head?_lower_eq_hash, List.head?_cons, Option.some_inj]
  rw [hhead word, hhead word', h]

end Text

namespace Statement

open Text

/-! ### Contents -/

/-- What is read from a line, if it holds a statement: the command word in lower case, and the text of
the arguments. -/
def content? (line : List Char) : Option (List Char × List Char) :=
  let s := trim line
  if isIdle s then none else some (splitLine s)

theorem content?_of_blank {line : List Char} (h : Blank line) : content? line = none := by
  rw [content?, trim_of_blank h]
  rfl

/-- The content of a line from its parts. -/
theorem content?_of_word {front word rest : List Char} (hfront : Blank front) (hword : IsWord word)
    (hrest : ∀ c ∈ rest.head?, isBlank c = true) :
    content? (front ++ (word ++ rest)) =
      if word.head? = some '#' then none else some (lower word, trim rest) := by
  have hidle (rest : List Char) : isIdle (word ++ rest) = decide (word.head? = some '#') := by
    obtain ⟨c, word, rfl⟩ := List.exists_cons_of_ne_nil hword.ne_nil
    simp [isIdle, beq_eq_decide]
  rcases blank_or_exists_tight rest with hblank | ⟨gap, core, back, hgap, hcore, hback, rfl⟩
  · have htrim := hword.tight.trim_margins hfront hblank
    have hidleword := hidle []
    rw [List.append_nil] at hidleword
    rw [content?, htrim, hidleword, splitLine, hword.tight.trim_eq, hword.cutWord_eq,
      trim_of_blank hblank]
    simp only [decide_eq_true_eq]
  · have hne : gap ≠ [] := by
      rintro rfl
      obtain ⟨c, core, rfl⟩ := List.exists_cons_of_ne_nil hcore.ne_nil
      have hc := hcore.head c rfl
      rw [hrest c rfl] at hc
      cases hc
    have htight := hword.tight.around gap hcore
    have htrim : trim (front ++ (word ++ (gap ++ (core ++ back)))) = word ++ (gap ++ core) := by
      have hwhole : word ++ (gap ++ (core ++ back)) = (word ++ (gap ++ core)) ++ back := by
        simp only [List.append_assoc]
      rw [hwhole]
      exact htight.trim_margins hfront hback
    rw [content?, htrim, hidle, splitLine, htight.trim_eq, hword.cutWord_append_gap hgap hne hcore,
      hcore.trim_margins hgap hback]
    simp only [decide_eq_true_eq]

theorem content?_of_idle {line : List Char} (h : IdleLine line) : content? line = none := by
  cases h with
  | blank hblank => exact content?_of_blank hblank
  | @comment margin text hmargin =>
    obtain ⟨word, rest, htext, hword, hrest⟩ := exists_run (!isBlank ·) text
    have hwhole : '#' :: text = '#' :: word ++ rest := by rw [htext, List.cons_append]
    have hisWord : IsWord ('#' :: word) := by
      refine ⟨List.cons_ne_nil _ _, List.forall_mem_cons.2 ⟨by decide, fun c hc => ?_⟩⟩
      exact Bool.not_eq_true' _ ▸ hword c hc
    rw [hwhole, content?_of_word hmargin hisWord, List.head?_cons, if_pos rfl]
    exact fun c hc => Bool.not_eq_false' .. ▸ hrest c hc

theorem content?_of_sameLine {line line' : List Char} (h : SameLine line line') :
    content? line = content? line' := by
  cases h with
  | margins core hfront hfront' hback hback' =>
    rw [content?, content?, trim_margins hfront core hback, trim_margins hfront' core hback']
  | @gap front word between between' args hfront hword hbetween hne hbetween' hne' =>
    have hblank {gap : List Char} (hgap : Blank gap) (hne : gap ≠ []) :
        ∀ c ∈ (gap ++ args).head?, isBlank c = true := by
      intro c hc
      rw [List.head?_append_of_ne_nil gap hne] at hc
      exact hgap c (List.mem_of_mem_head? hc)
    have htrim {gap : List Char} (hgap : Blank gap) : trim (gap ++ args) = trim args := by
      have hmargins := trim_margins hgap args (fun c (hmem : c ∈ []) => nomatch hmem)
      rwa [List.append_nil] at hmargins
    rw [content?_of_word hfront hword (hblank hbetween hne),
      content?_of_word hfront hword (hblank hbetween' hne'), htrim hbetween, htrim hbetween']
  | respelled hfront hword hword' hlower hrest =>
    rw [content?_of_word hfront hword hrest, content?_of_word hfront hword' hrest, hlower]
    simp only [head?_eq_hash_of_lower hlower]

theorem filterMap_content?_of_edit {given given' : List (List Char)} (h : LayoutEdit given given') :
    given.filterMap content? = given'.filterMap content? := by
  cases h with
  | insert before after hline =>
    rw [List.filterMap_append, List.filterMap_append, List.filterMap_cons_none (content?_of_idle hline)]
  | delete before after hline =>
    rw [List.filterMap_append, List.filterMap_append, List.filterMap_cons_none (content?_of_idle hline)]
  | change before after hline =>
    rw [List.filterMap_append, List.filterMap_append, List.filterMap_cons, List.filterMap_cons,
      content?_of_sameLine hline]

/-- The layout does not matter for the contents. -/
theorem filterMap_content? {s s' : String} (h : SameLayout s s') :
    (lines s.toList).filterMap content? = (lines s'.toList).filterMap content? := by
  unfold SameLayout at h
  generalize lines s'.toList = given at h
  induction h with
  | refl => rfl
  | tail _ hedit ih => exact ih.trans (filterMap_content?_of_edit hedit)

/-! ### Numbered contents -/

/-- The contents of lines with the numbers of these; the first line has the given number. -/
def heldFrom : (number : Nat) → List (List Char) → List (Int × (List Char × List Char))
  | _, [] => []
  | number, line :: rest =>
    match content? line with
    | none => heldFrom (number + 1) rest
    | some content => (number, content) :: heldFrom (number + 1) rest

/-- The numbers of the lines of a text that hold a statement, in order. -/
def heldLines (s : String) : List Int :=
  (heldFrom 1 (lines s.toList)).map (·.1)

theorem snd_heldFrom (number : Nat) (given : List (List Char)) :
    (heldFrom number given).map (·.2) = given.filterMap content? := by
  induction given generalizing number with
  | nil => rfl
  | cons line rest ih =>
    rw [heldFrom]
    cases hcontent : content? line with
    | none => rw [List.filterMap_cons_none hcontent, ih]
    | some content => rw [List.filterMap_cons_some hcontent, List.map_cons, ih]

theorem le_of_mem_heldFrom {number : Nat} {given : List (List Char)}
    {entry : Int × (List Char × List Char)} (h : entry ∈ heldFrom number given) :
    (number : Int) ≤ entry.1 := by
  induction given generalizing number with
  | nil => cases h
  | cons line rest ih =>
    rw [heldFrom] at h
    have hrest (hmem : entry ∈ heldFrom (number + 1) rest) : (number : Int) ≤ entry.1 := by
      have := ih hmem
      omega
    cases hcontent : content? line with
    | none =>
      rw [hcontent] at h
      exact hrest h
    | some content =>
      rw [hcontent] at h
      rcases List.mem_cons.1 h with rfl | hmem
      · exact Int.le_refl _
      · exact hrest hmem

theorem pairwise_heldFrom (number : Nat) (given : List (List Char)) :
    ((heldFrom number given).map (·.1)).Pairwise (· < ·) := by
  induction given generalizing number with
  | nil => exact .nil
  | cons line rest ih =>
    rw [heldFrom]
    cases content? line with
    | none => exact ih (number + 1)
    | some content =>
      refine List.pairwise_cons.2 ⟨fun n hn => ?_, ih (number + 1)⟩
      obtain ⟨entry, hentry, rfl⟩ := List.mem_map.1 hn
      have hle := le_of_mem_heldFrom hentry
      dsimp only
      omega

/-- The lines that hold statements stand in order. -/
theorem pairwise_heldLines (s : String) : (heldLines s).Pairwise (· < ·) :=
  pairwise_heldFrom 1 _

/-! ### Renumberings -/

theorem exists_map_eq {ns ns' : List Int} (hnodup : ns.Nodup) (hlength : ns.length = ns'.length) :
    ∃ f : Int → Int, ns.map f = ns' := by
  induction ns generalizing ns' with
  | nil => exact ⟨id, (List.length_eq_zero_iff.1 hlength.symm).symm⟩
  | cons n ns ih =>
    rcases ns' with _ | ⟨n', ns'⟩
    · cases hlength
    obtain ⟨hn, hnodup⟩ := List.nodup_cons.1 hnodup
    obtain ⟨f, hf⟩ := ih hnodup (Nat.succ.inj hlength)
    refine ⟨Function.update f n n', ?_⟩
    have hrest : ns.map (Function.update f n n') = ns.map f :=
      List.map_congr_left fun m hm => Function.update_of_ne (fun (heq : m = n) => hn (heq ▸ hm)) ..
    rw [List.map_cons, Function.update_self, hrest, hf]

/-- Numbers are replaced by others in the same order. -/
def KeepsOrder (f : Int → Int) (ns : List Int) : Prop :=
  ∀ a ∈ ns, ∀ b ∈ ns, a < b → f a < f b

/-- Numbers in order that are replaced by numbers in order are replaced in order. -/
theorem keepsOrder_of_map {ns : List Int} {f : Int → Int} (h : ns.Pairwise (· < ·))
    (hmap : (ns.map f).Pairwise (· < ·)) : KeepsOrder f ns := by
  induction ns with
  | nil => exact List.forall_mem_nil _
  | cons n ns ih =>
    obtain ⟨hn, hrest⟩ := List.pairwise_cons.1 h
    obtain ⟨hfn, hfrest⟩ := List.pairwise_cons.1 hmap
    intro a ha b hb hab
    rcases List.mem_cons.1 ha with rfl | ha' <;> rcases List.mem_cons.1 hb with rfl | hb'
    · exact absurd hab (Int.lt_irrefl _)
    · exact hfn _ (List.mem_map_of_mem hb')
    · exact absurd hab (Int.lt_asymm (hn a ha'))
    · exact ih hrest hfrest a ha' b hb' hab

theorem eq_map_of_parts {α : Type} {f : Int → Int} {entries entries' : List (Int × α)}
    (hfst : entries'.map (·.1) = (entries.map (·.1)).map f)
    (hsnd : entries'.map (·.2) = entries.map (·.2)) :
    entries' = entries.map fun entry => (f entry.1, entry.2) := by
  induction entries generalizing entries' with
  | nil => exact List.map_eq_nil_iff.1 hsnd
  | cons entry entries ih =>
    rcases entries' with _ | ⟨entry', entries'⟩
    · cases hsnd
    · obtain ⟨hfst, hfsts⟩ := List.cons.inj hfst
      obtain ⟨hsnd, hsnds⟩ := List.cons.inj hsnd
      rw [List.map_cons, ih hfsts hsnds]
      exact congrArg (· :: _) (Prod.ext hfst hsnd)

/-- A renumbering takes the lines of one text to those of another one with the same contents. -/
def Renumbers (f : Int → Int) (s s' : String) : Prop :=
  heldFrom 1 (lines s'.toList) =
    (heldFrom 1 (lines s.toList)).map fun entry => (f entry.1, entry.2)

/-- Nothing is renumbered when all lines that hold a statement keep their numbers. -/
theorem renumbers_self {f : Int → Int} {s : String} (h : ∀ n ∈ heldLines s, f n = n) :
    Renumbers f s s := by
  refine eq_map_of_parts ?_ rfl
  exact (List.map_id _).symm.trans (List.map_congr_left fun n hn => (h n hn).symm)

/-- Another layout renumbers the lines that hold statements, in their order. -/
theorem exists_renumbering {s s' : String} (h : SameLayout s s') :
    ∃ f : Int → Int, Renumbers f s s' ∧ (heldLines s).map f = heldLines s' ∧
      KeepsOrder f (heldLines s) := by
  have hcontents : (heldFrom 1 (lines s'.toList)).map (·.2) =
      (heldFrom 1 (lines s.toList)).map (·.2) := by
    rw [snd_heldFrom, snd_heldFrom, filterMap_content? h]
  have hlength : (heldLines s).length = (heldLines s').length := by
    have hlengths := congrArg List.length hcontents
    rw [List.length_map, List.length_map] at hlengths
    rw [heldLines, heldLines, List.length_map, List.length_map, hlengths]
  have hnodup : (heldLines s).Nodup := (pairwise_heldLines s).imp fun hlt => Int.ne_of_lt hlt
  obtain ⟨f, hf⟩ := exists_map_eq hnodup hlength
  refine ⟨f, eq_map_of_parts hf.symm hcontents, hf, ?_⟩
  exact keepsOrder_of_map (pairwise_heldLines s) (hf ▸ pairwise_heldLines s')

/-! ### Reading -/

/-- Reading lines is reading their contents. -/
theorem readLinesFrom_eq (settings : Settings) (number : Nat) (given : List (List Char)) :
    readLinesFrom settings number given =
      (heldFrom number given).mapM fun entry => readParts settings entry.1 entry.2 := by
  induction given generalizing number with
  | nil => rfl
  | cons line rest ih =>
    rw [readLinesFrom, heldFrom, content?]
    by_cases hidle : isIdle (trim line) = true
    · rw [if_pos hidle, if_pos hidle, ih]
    · rw [if_neg hidle, if_neg hidle, List.mapM_cons, ← ih, readLine_eq]

theorem tracks_readLines {settings settings' : Settings} (hsettings : settings.Relaxes settings')
    {f : Int → Int} {s s' : String} (h : Renumbers f s s') :
    Tracks settings settings' f (fun given given' => given' = given.map (·.renumber f))
      (readLines settings (lines s.toList)) (readLines settings' (lines s'.toList)) := by
  rw [readLines, readLines, readLinesFrom_eq, readLinesFrom_eq, h]
  induction heldFrom 1 (lines s.toList) with
  | nil => exact .ok rfl
  | cons entry entries ih =>
    rw [List.map_cons, List.mapM_cons, List.mapM_cons]
    refine (tracks_readParts hsettings entry.1 entry.2).bind fun t t' ht => ?_
    refine ih.bind fun ts ts' hts => ?_
    rw [ht, hts]
    exact .ok rfl

end Statement

end Pipeline
