import Pipeline.Proofs.Text.Lowering
import Pipeline.Registry

/-!
# Command names

A name that passes the check is a word of small latin letters, digits and underscores, or such a word
and one line feed.  It is in lower case, so what is registered is found under the lower-case form of the
lower-case form as well.

* `exists_word_of_isCommandName` : the two shapes of a name.
* `lowerString_of_isCommandName` : a name is in lower case.
* `Registry.register_eq_ok_iff` : what is registered, and when.
-/

namespace Pipeline

open Text

/-- A word of small latin letters, digits and underscores that does not start with a digit. -/
structure CommandWord (word : List Char) : Prop where
  ne_nil : word ≠ []
  head : ∀ c ∈ word.head?, isCommandStart c = true
  chars : ∀ c ∈ word, 0x30 ≤ c.toNat ∧ c.toNat ≤ 0x39 ∨ 0x5F ≤ c.toNat ∧ c.toNat ≤ 0x7A

theorem bounds_of_isCommandStart {c : Char} (h : isCommandStart c = true) :
    0x5F ≤ c.toNat ∧ c.toNat ≤ 0x7A := by
  simp only [isCommandStart, Bool.or_eq_true, Bool.and_eq_true, decide_eq_true_eq, beq_iff_eq] at h
  rcases h with ⟨hfrom, hto⟩ | rfl
  · have hfrom' : 0x61 ≤ c.toNat := hfrom
    have hto' : c.toNat ≤ 0x7A := hto
    omega
  · decide

/-- Behind its first character a name has name characters only, up to its end or one line feed. -/
theorem exists_of_isCommandTail {s : List Char} (h : isCommandTail s = true) :
    ∃ word ending, s = word ++ ending ∧ (ending = [] ∨ ending = ['\n']) ∧
      ∀ c ∈ word, 0x30 ≤ c.toNat ∧ c.toNat ≤ 0x39 ∨ 0x5F ≤ c.toNat ∧ c.toNat ≤ 0x7A := by
  fun_induction isCommandTail s with
  | case1 => exact ⟨[], [], rfl, .inl rfl, List.forall_mem_nil _⟩
  | case2 => exact ⟨[], ['\n'], rfl, .inr rfl, List.forall_mem_nil _⟩
  | case3 c rest _ ih =>
    obtain ⟨hc, hrest⟩ := (Bool.and_eq_true _ _).mp h
    obtain ⟨word, ending, rfl, hending, hword⟩ := ih hrest
    refine ⟨c :: word, ending, rfl, hending, List.forall_mem_cons.2 ⟨?_, hword⟩⟩
    rcases (Bool.or_eq_true _ _).mp hc with hstart | hdigit
    · exact .inr (bounds_of_isCommandStart hstart)
    · simp only [Bool.and_eq_true, decide_eq_true_eq] at hdigit
      exact .inl hdigit

/-- A command name is a word, or a word and one line feed. -/
theorem exists_word_of_isCommandName {s : List Char} (h : isCommandName s = true) :
    ∃ word ending, s = word ++ ending ∧ (ending = [] ∨ ending = ['\n']) ∧ CommandWord word := by
  cases s with
  | nil => cases h
  | cons c rest =>
    obtain ⟨hstart, htail⟩ := (Bool.and_eq_true _ _).mp h
    obtain ⟨word, ending, rfl, hending, hword⟩ := exists_of_isCommandTail htail
    have hc := bounds_of_isCommandStart hstart
    exact ⟨c :: word, ending, rfl, hending, List.cons_ne_nil c word,
      fun d hd => Option.some.inj hd ▸ hstart, List.forall_mem_cons.2 ⟨.inr hc, hword⟩⟩

theorem CommandWord.isNarrow {word ending : List Char} (h : CommandWord word)
    (hending : ending = [] ∨ ending = ['\n']) : ∀ c ∈ word ++ ending, IsNarrow c ∧ c.toNat < 0x80 := by
  refine List.forall_mem_append.2 ⟨fun c hc => ?_, fun c hc => ?_⟩
  · have hbounds := h.chars c hc
    unfold IsNarrow
    omega
  · rcases hending with rfl | rfl
    · cases hc
    · rw [List.mem_singleton.1 hc]
      exact ⟨.inl (by decide), by decide⟩

/-- A command name is in lower case. -/
theorem lowerString_of_isCommandName {name : String} (h : isCommandName name.toList = true) :
    lowerString name = name := by
  obtain ⟨word, ending, hname, hending, hword⟩ := exists_word_of_isCommandName h
  have hnarrow : ∀ c ∈ name.toList, IsNarrow c := by
    rw [hname]
    exact fun c hc => (hword.isNarrow hending c hc).1
  rw [lowerString, lower_eq_self hnarrow, String.ofList_toList]

namespace Registry

/-- Nothing speaks against a name that passes the check and a handler that can be called as one of a
command. -/
theorem refusal?_eq_none_iff {name : String} {handler : Handler} :
    refusal? name handler = none ↔ isCommandName name.toList = true ∧
      handler.isCallable = true ∧ handler.mismatch? = none := by
  unfold refusal?
  cases isCommandName name.toList <;> cases handler.isCallable <;> simp

section Register

variable {registry registry' : Registry} {name : String} {handler : Handler} {opensBlock : Bool}

theorem register_of_accepted (h : refusal? (lowerString name) handler = none) :
    registry.register name handler opensBlock =
      .ok (registry.enter (lowerString name) handler opensBlock) := by
  simp only [register, h]

theorem register_of_refused {cause : Cause} (h : refusal? (lowerString name) handler = some cause) :
    registry.register name handler opensBlock = .error (.of cause) := by
  simp only [register, h]

/-- A registration is accepted if nothing speaks against it, and then it enters the handler and the flag
under the lower-case form of the name. -/
theorem register_eq_ok_iff : registry.register name handler opensBlock = .ok registry' ↔
    refusal? (lowerString name) handler = none ∧
      registry' = registry.enter (lowerString name) handler opensBlock := by
  cases hrefusal : refusal? (lowerString name) handler with
  | some cause => simp [register_of_refused hrefusal]
  | none => simp [register_of_accepted hrefusal, eq_comm]

end Register

theorem mem_blockCommands {registry : Registry} {name : String} :
    name ∈ registry.blockCommands ↔ name ∈ registry.blocks := by
  rw [blockCommands, sortedNames, List.mem_mergeSort, List.mem_eraseDups]

end Registry

end Pipeline
