import Mathlib.Data.List.Basic
import Pipeline.Text.Blank
import Pipeline.Text.LetterCase

/-!
# What lower-casing moves

Lower-casing moves capital letters, and it moves them behind the small latin letters or among them.  So
the characters in front of `a` come from themselves alone, and digits, the underscore, small letters and
blanks stay.  A final sigma and a combining dot are far from the ASCII characters: a text whose
lower-case form is an ASCII text is lowered character by character.

* `eq_of_lowerChar` : what is lowered to a character in front of `a` is that character.
* `lowerChar_of_isBlank`, `lowerChar_of_isNarrow` : what stays.
* `lower_eq_map`, `lower_eq_self` : the texts that are lowered character by character, or not at all.
* `isPlainCase_of_lowerAfter` : among them are those whose lower-case form is an ASCII text.
-/

namespace Pipeline.Text

/-- A code point stands for a character, or else for the NUL character. -/
theorem toNat_ofNat (n : Nat) : (Char.ofNat n).toNat = n ∨ (Char.ofNat n).toNat = 0 := by
  by_cases h : n.isValidChar
  · rw [Char.ofNat, dif_pos h]
    exact .inl rfl
  · rw [Char.ofNat, dif_neg h]
    exact .inr rfl

/-! ### Characters -/

variable {c d : Char}

/-- The first run of the mapping is that of the latin capitals, and every run leads to `a` or beyond. -/
theorem bounds_of_mem_caseRuns {run : CaseRun} (h : run ∈ caseRuns) :
    (0x41 ≤ run.first ∧ run.last ≤ 0x5A ∨ 0xC0 ≤ run.first) ∧ 0x61 ≤ run.first + run.offset := by
  have hruns : caseRuns.all (fun run => decide ((0x41 ≤ run.first ∧ run.last ≤ 0x5A ∨
      0xC0 ≤ run.first) ∧ 0x61 ≤ run.first + run.offset)) = true := by decide +kernel
  exact of_decide_eq_true (List.all_eq_true.1 hruns run h)

theorem CaseRun.bounds_of_has {run : CaseRun} {n : Nat} (h : run.has n = true) :
    run.first ≤ n ∧ n ≤ run.last := by
  simp only [has, Bool.and_eq_true, decide_eq_true_eq] at h
  exact h.1

/-- A character in front of `a` comes from itself alone. -/
theorem eq_of_lowerChar (h : lowerChar c = d) (hd : d.toNat < 0x61) (hnul : d.toNat ≠ 0) : c = d := by
  unfold lowerChar at h
  split at h
  · next run hrun =>
    have hbounds := bounds_of_mem_caseRuns (List.mem_of_find?_eq_some hrun)
    have hhas := List.find?_some hrun
    have hinside := CaseRun.bounds_of_has hhas
    have hcode := toNat_ofNat (c.toNat + run.offset).toNat
    rw [h] at hcode
    omega
  · exact h

theorem lowerChar_of_find? (h : caseRuns.find? (·.has c.toNat) = none) : lowerChar c = c := by
  rw [lowerChar, h]

/-- The characters in front of the letter `À`, the latin capitals excepted. -/
def IsNarrow (c : Char) : Prop :=
  c.toNat < 0x41 ∨ 0x5A < c.toNat ∧ c.toNat < 0xC0

theorem lowerChar_of_isNarrow (h : IsNarrow c) : lowerChar c = c := by
  refine lowerChar_of_find? (List.find?_eq_none.2 fun run hrun hhas => ?_)
  have hbounds := bounds_of_mem_caseRuns hrun
  have hcode := CaseRun.bounds_of_has hhas
  unfold IsNarrow at h
  omega

/-- Blanks stay. -/
theorem lowerChar_of_isBlank (h : isBlank c = true) : lowerChar c = c := by
  by_cases hnarrow : c.toNat < 0xC0
  · refine lowerChar_of_isNarrow ?_
    simp only [isBlank, isSpace, Bool.or_eq_true, Bool.and_eq_true, decide_eq_true_eq,
      beq_iff_eq] at h
    unfold IsNarrow
    omega
  · have hwide : c.toNat ∈ 0x1680 :: (List.range 11).map (0x2000 + ·) ++
        [0x2028, 0x2029, 0x202F, 0x205F, 0x3000] := by
      simp only [isBlank, isSpace, Bool.or_eq_true, Bool.and_eq_true, decide_eq_true_eq,
        beq_iff_eq] at h
      simp only [List.cons_append, List.mem_cons, List.mem_append, List.mem_map, List.mem_range,
        List.not_mem_nil, or_false]
      by_cases hspace : 0x2000 ≤ c.toNat ∧ c.toNat ≤ 0x200A
      · exact .inr (.inl ⟨c.toNat - 0x2000, by omega, by omega⟩)
      · omega
    have hnone : ∀ n ∈ 0x1680 :: (List.range 11).map (0x2000 + ·) ++
        [0x2028, 0x2029, 0x202F, 0x205F, 0x3000], (caseRuns.find? (·.has n)).isNone = true := by
      decide +kernel
    exact lowerChar_of_find? (Option.isNone_iff_eq_none.1 (hnone _ hwide))

/-! ### Texts -/

/-- A character that is lowered in the same way wherever it stands, and to one character. -/
def IsPlainCase (c : Char) : Prop :=
  c ≠ 'Σ' ∧ c ≠ 'İ'

theorem IsNarrow.isPlainCase (h : IsNarrow c) : IsPlainCase c := by
  constructor <;> rintro rfl <;> revert h <;> unfold IsNarrow <;> decide

theorem lowerAfter_eq_map {before s : List Char} (h : ∀ c ∈ s, IsPlainCase c) :
    lowerAfter before s = s.map lowerChar := by
  induction s generalizing before with
  | nil => rfl
  | cons c rest ih =>
    obtain ⟨⟨hsigma, hdotted⟩, hrest⟩ := List.forall_mem_cons.1 h
    rw [lowerAfter, if_neg hsigma, if_neg hdotted, ih hrest]
    rfl

theorem lower_eq_map {s : List Char} (h : ∀ c ∈ s, IsPlainCase c) : lower s = s.map lowerChar :=
  lowerAfter_eq_map h

/-- A text without capitals stays. -/
theorem lower_eq_self {s : List Char} (h : ∀ c ∈ s, IsNarrow c) : lower s = s := by
  rw [lower_eq_map fun c hc => (h c hc).isPlainCase]
  exact (List.map_congr_left fun c hc => lowerChar_of_isNarrow (h c hc)).trans (List.map_id s)

/-- The two exceptions are not lowered to ASCII characters. -/
theorem isPlainCase_of_lowerAfter {before s : List Char}
    (h : ∀ c ∈ lowerAfter before s, c.toNat < 0x80) : ∀ c ∈ s, IsPlainCase c := by
  induction s generalizing before with
  | nil => exact List.forall_mem_nil _
  | cons c rest ih =>
    obtain ⟨hfirst, hrest⟩ := List.forall_mem_append.1 h
    refine List.forall_mem_cons.2 ⟨⟨?_, ?_⟩, ih hrest⟩
    · rintro rfl
      have hwide := hfirst _ (List.mem_singleton.2 rfl)
      split at hwide <;> exact absurd hwide (by decide)
    · rintro rfl
      exact absurd (hfirst (Char.ofNat 0x307) (by simp)) (by decide)

/-- Characters in front of `a` are not brought in. -/
theorem mem_of_mem_lowerAfter {before s : List Char} (hd : d.toNat < 0x61) (hnul : d.toNat ≠ 0)
    (h : d ∈ lowerAfter before s) : d ∈ s := by
  induction s generalizing before with
  | nil => cases h
  | cons c rest ih =>
    rcases List.mem_append.1 h with hfirst | hrest
    · have hwide {e : Char} (he : 0x61 ≤ e.toNat) : d ≠ e := by
        rintro rfl
        omega
      split at hfirst
      · rw [List.mem_singleton] at hfirst
        split at hfirst <;> exact absurd hfirst (hwide (by decide))
      · split at hfirst
        · rcases List.mem_cons.1 hfirst with hletter | hdot
          · exact absurd hletter (hwide (by decide))
          · exact absurd (List.mem_singleton.1 hdot) (hwide (by decide))
        · have hself := eq_of_lowerChar (List.mem_singleton.1 hfirst).symm hd hnul
          exact hself ▸ List.mem_cons_self
    · exact List.mem_cons_of_mem c (ih hrest)

end Pipeline.Text
