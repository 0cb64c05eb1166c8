import Pipeline.Proofs.Settings.Relaxing
import Pipeline.Proofs.Statement.Reading

/-!
# Lines under relaxed settings

Reading the arguments of a statement looks at one setting only, that of unknown escapes.  A string
without such escapes means the same under all settings, and a string with one is a fault where they
are refused, which the settings lift by giving them a meaning.

* `Token.tracks_scan` : the tokens of an argument.
* `Statement.tracks_readParts` : the statement that a command word and the text of arguments give.
-/

namespace Pipeline

open Text

variable {s s' : Settings}

namespace Token

/-- An escape that has a meaning keeps it. -/
theorem escaped?_of_relaxes (h : s.Relaxes s') {c : Char} {meant : List Char}
    (hmeant : escaped? s.unknownEscape c = some meant) :
    escaped? s'.unknownEscape c = some meant := by
  rcases h.unknownEscape with heq | hreject
  · rwa [heq]
  · rw [hreject] at hmeant
    unfold escaped? at hmeant ⊢
    cases hc : escape? c with
    | some d => rwa [hc] at hmeant
    | none =>
      rw [hc] at hmeant
      cases hmeant

theorem tracks_readString (h : s.Relaxes s') (cs : List Char) :
    Tracks s s' id Eq (readString s.unknownEscape cs) (readString s'.unknownEscape cs) := by
  fun_induction readString s.unknownEscape cs with
  | case1 => exact .refl _
  | case2 => exact .refl _
  | case3 c rest hnone =>
    by_cases heq : s'.unknownEscape = s.unknownEscape
    · rw [readString, heq, hnone]
      exact .refl _
    · exact .lifted _ heq
  | case4 c rest meant hmeant ih =>
    rw [readString, escaped?_of_relaxes h hmeant]
    exact ih.map fun r r' hr => by rw [hr]
  | case5 =>
    rw [readString, if_pos rfl]
    · exact .refl _
    all_goals simp
  | case6 c rest hslash hbackslash hquote ih =>
    rw [readString, if_neg hquote]
    · exact ih.map fun r r' hr => by rw [hr]
    all_goals assumption

/-- At a quote a string is read, and then the tokens behind it. -/
theorem scan_quote (policy : EscapePolicy) (rest : List Char) :
    scan policy ('"' :: rest) = readString policy rest >>= fun r =>
      (scan policy r.2).map (stringOf (String.ofList r.1) :: ·) := by
  have hblank : ¬isBlank '"' = true := by decide
  rw [scan, if_neg hblank, if_pos rfl]
  cases readString policy rest <;> rfl

/-- The tokens of an argument are those that are read when no escape is refused. -/
theorem tracks_scan (h : s.Relaxes s') (cs : List Char) :
    Tracks s s' id Eq (scan s.unknownEscape cs) (scan s'.unknownEscape cs) := by
  have next {token : Token} {x x' : Except Fault (List Token)} (htracks : Tracks s s' id Eq x x') :
      Tracks s s' id Eq (x.map (token :: ·)) (x'.map (token :: ·)) :=
    htracks.map fun tokens tokens' htokens => by rw [htokens]
  fun_induction scan s.unknownEscape cs with
  | case1 =>
    rw [scan]
    exact .refl _
  | case2 c rest hblank ih =>
    rw [scan, if_pos hblank]
    exact ih
  | case3 rest fault hfault =>
    have hstring := tracks_readString h rest
    rw [hfault] at hstring
    rw [scan_quote]
    generalize readString s'.unknownEscape rest = string at hstring
    cases hstring with
    | fault => exact .fault _
    | lifted _ hlifts => exact .lifted _ hlifts
  | case4 rest text rest' hread _ ih =>
    have hstring := tracks_readString h rest
    rw [hread] at hstring
    rw [scan_quote]
    generalize readString s'.unknownEscape rest = string at hstring
    cases hstring with
    | ok heq =>
      rw [← heq]
      exact next ih
  | case5 rest hname hblank hquote =>
    rw [scan, if_neg hblank, if_neg hquote, if_pos rfl, hname]
    exact .refl _
  | case6 rest hblank hquote hname ih =>
    rw [scan, if_neg hblank, if_neg hquote, if_pos rfl]
    split
    · next hnil => exact (hname hnil).elim
    · exact next ih
  | case7 c rest hblank hquote hdollar hdigit ih =>
    rw [scan, if_neg hblank, if_neg hquote, if_neg hdollar, if_pos hdigit]
    exact next ih
  | case8 c rest hblank hquote hdollar hdigit hoperator ih =>
    rw [scan, if_neg hblank, if_neg hquote, if_neg hdollar, if_neg hdigit, if_pos hoperator]
    exact next ih
  | case9 c rest hblank hquote hdollar hdigit hoperator =>
    rw [scan, if_neg hblank, if_neg hquote, if_neg hdollar, if_neg hdigit, if_neg hoperator]
    exact .refl _

end Token

theorem Expr.tracks_ofText (h : s.Relaxes s') (text : List Char) :
    Tracks s s' id Eq (Expr.ofText s.unknownEscape text) (Expr.ofText s'.unknownEscape text) :=
  (Token.tracks_scan h text).bind fun tokens tokens' htokens => by
    rw [htokens]
    exact .refl _

namespace Statement

variable {f : Int → Int}

theorem tracks_readArgs (h : s.Relaxes s') (line : Int) (number : Nat) (args : List (List Char)) :
    Tracks s s' f Eq (readArgs s line number args) (readArgs s' (f line) number args) := by
  induction args generalizing number with
  | nil => exact .ok rfl
  | cons arg rest ih =>
    have htree : Tracks s s' id Eq
        (if arg.isEmpty then .error (.of .emptyArgument) else Expr.ofText s.unknownEscape arg)
        (if arg.isEmpty then .error (.of .emptyArgument) else Expr.ofText s'.unknownEscape arg) := by
      split
      · exact .refl _
      · exact Expr.tracks_ofText h arg
    refine Tracks.bind (htree.locating (.ofArgument line number)) fun tree tree' heq => ?_
    refine Tracks.bind (ih (number + 1)) fun trees trees' heqs => ?_
    rw [heq, heqs]
    exact .ok rfl

/-- The statement that a command word and the text of its arguments give. -/
def readParts (settings : Settings) (line : Int) (parts : List Char × List Char) :
    Except Fault Statement := do
  let args ← locating (.ofLine line) (Arguments.split parts.2)
  let trees ← readArgs settings line 0 args
  return ⟨line, String.ofList parts.1, trees⟩

theorem readLine_eq (settings : Settings) (line : Int) (text : List Char) :
    readLine settings line text = readParts settings line (splitLine text) := rfl

/-- A line gives the same statement under relaxed settings, on a line with another number. -/
theorem tracks_readParts (h : s.Relaxes s') (line : Int) (parts : List Char × List Char) :
    Tracks s s' f (fun a b => b = a.renumber f) (readParts s line parts)
      (readParts s' (f line) parts) := by
  refine Tracks.bind ((Tracks.refl _).locating (.ofLine line)) fun args args' heq => ?_
  rw [← heq]
  refine Tracks.bind (tracks_readArgs h line 0 args) fun trees trees' heqs => ?_
  rw [heqs]
  exact .ok rfl

end Statement

end Pipeline
