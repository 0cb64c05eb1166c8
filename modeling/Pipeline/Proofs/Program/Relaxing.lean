import Pipeline.Proofs.Settings.Relaxing
import Pipeline.Program

/-!
# Programs under relaxed settings

The builder looks at one limit, that of the nesting.  When the limit is raised it builds the same
program from the same statements, unless it found before that they are nested too deeply; and the
numbers of lines play no part in it.

* `Program.tracks_build` : a whole program is built under relaxed settings as it was before.
-/

namespace Pipeline.Program

/-! ### Steps of the builder -/

section Steps

variable {settings : Settings} {inChain : Bool} {depth : Nat} {chainOpen : Bool} {s : Statement}
  (rest : List Statement)

theorem buildBody_continuation
    (hstops : (inChain && continuationCommands.contains s.command && !chainOpen) = true) :
    buildBody settings inChain depth chainOpen (s :: rest) =
      .ok ([], .continuation, ⟨s :: rest, Nat.le_refl _⟩) := by
  rw [buildBody, if_pos hstops]

variable (hstops : ¬(inChain && continuationCommands.contains s.command && !chainOpen) = true)

include hstops

theorem buildBody_terminator (hend : s.command = settings.terminator) :
    buildBody settings inChain depth chainOpen (s :: rest) =
      .ok ([], .terminator, ⟨rest, Nat.le_succ _⟩) := by
  rw [buildBody, if_neg hstops, if_pos hend]

variable (hend : s.command ≠ settings.terminator)

include hend

theorem buildBody_plain (hopens : ¬settings.opensBlock s.command = true) :
    buildBody settings inChain depth chainOpen (s :: rest) =
      (buildBody settings inChain depth false rest).map fun built =>
        (.simple s :: built.1, built.2.1,
          ⟨built.2.2.val, Nat.le_succ_of_le built.2.2.property⟩) := by
  rw [buildBody, if_neg hstops, if_neg hend, if_neg hopens]
  rcases buildBody settings inChain depth false rest with fault | ⟨nodes, stop, rest', h⟩ <;> rfl

variable (hopens : settings.opensBlock s.command = true)

include hopens

theorem buildBody_misplaced
    (hmisplaced : (continuationCommands.contains s.command && !chainOpen) = true) :
    buildBody settings inChain depth chainOpen (s :: rest) =
      .error (.script (.misplacedContinuation s.command) (.ofLine s.line)) := by
  rw [buildBody, if_neg hstops, if_neg hend, if_pos hopens, if_pos hmisplaced]

variable (hplaced : ¬(continuationCommands.contains s.command && !chainOpen) = true)

include hplaced

theorem buildBody_tooDeep (hdeep : settings.maxDepth ≤ depth) :
    buildBody settings inChain depth chainOpen (s :: rest) =
      .error (.script (.blocksTooDeep settings.maxDepth) (.ofLine s.line)) := by
  rw [buildBody, if_neg hstops, if_neg hend, if_pos hopens, if_neg hplaced, if_pos hdeep]

/-- A block is built from its body and from what comes behind the body. -/
theorem buildBody_opens (hroom : ¬settings.maxDepth ≤ depth) :
    buildBody settings inChain depth chainOpen (s :: rest) =
      buildBody settings (chainCommands.contains s.command) (depth + 1) false rest >>= fun inner =>
        if inner.2.1 = .ended then
          .error (.script (.neverClosed s.command settings.terminator) (.ofLine s.line))
        else
          (buildBody settings inChain depth (inner.2.1 == .continuation) inner.2.2.val).map
            fun outer => (.block s inner.1 :: outer.1, outer.2.1,
              ⟨outer.2.2.val, Nat.le_trans outer.2.2.property
                (Nat.le_succ_of_le inner.2.2.property)⟩) := by
  rw [buildBody, if_neg hstops, if_neg hend, if_pos hopens, if_neg hplaced, if_neg hroom]
  rcases buildBody settings (chainCommands.contains s.command) (depth + 1) false rest with
    fault | ⟨body, stop, rest₁, h₁⟩
  · rfl
  · cases stop with
    | ended => rfl
    | continuation =>
      dsimp only [bind, Except.bind]
      rw [if_neg (by decide)]
      rcases buildBody settings inChain depth (Stop.continuation == Stop.continuation) rest₁ with
        fault | ⟨nodes, stop, rest₂, h₂⟩ <;> rfl
    | terminator =>
      dsimp only [bind, Except.bind]
      rw [if_neg (by decide)]
      rcases buildBody settings inChain depth (Stop.terminator == Stop.continuation) rest₁ with
        fault | ⟨nodes, stop, rest₂, h₂⟩ <;> rfl

end Steps

/-- Statements that neither open nor close a block are built as they stand. -/
theorem build_of_plain {settings : Settings} {given : List Statement}
    (h : ∀ s ∈ given, s.command ≠ settings.terminator ∧ ¬settings.opensBlock s.command = true) :
    build settings given = .ok (given.map .simple) := by
  have hbody : buildBody settings false 0 false given =
      .ok (given.map .simple, .ended, ⟨[], Nat.zero_le _⟩) := by
    induction given with
    | nil => rw [buildBody, List.map_nil]
    | cons s rest ih =>
      obtain ⟨⟨hend, hopens⟩, hrest⟩ := List.forall_mem_cons.1 h
      rw [buildBody_plain rest (by simp) hend hopens, ih hrest]
      rfl
  have hend : given[(given.length : Int).toNat]? = none := by
    rw [Int.toNat_natCast, List.getElem?_eq_none (Nat.le_refl _)]
  rw [build, buildFrom, List.drop_zero, hbody]
  dsimp only [Except.map, bind, Except.bind]
  rw [hend]
  rfl

/-! ### Bodies -/

/-- What is built from statements is what is built from the renumbered statements. -/
structure SameBuilt (f : Int → Int) {given given' : List Statement}
    (built : List Node × Stop × Rest given) (built' : List Node × Stop × Rest given') : Prop where
  nodes : built'.1 = renumber f built.1
  stop : built'.2.1 = built.2.1
  rest : built'.2.2.val = built.2.2.val.map (·.renumber f)

variable {s s' : Settings} {f : Int → Int}

/-- The builder asks the same of a renumbered statement under relaxed settings, up to the limit of the
nesting. -/
theorem tracks_buildBody (h : s.Relaxes s') (inChain : Bool) (depth : Nat) (chainOpen : Bool)
    (given : List Statement) :
    Tracks s s' f (SameBuilt f) (buildBody s inChain depth chainOpen given)
      (buildBody s' inChain depth chainOpen (given.map (·.renumber f))) := by
  induction hlength : given.length using Nat.strongRecOn generalizing inChain depth chainOpen given
    with
  | ind length ih =>
    rcases given with _ | ⟨t, rest⟩
    · rw [buildBody, List.map_nil, buildBody]
      exact .ok ⟨rfl, rfl, rfl⟩
    obtain rfl : rest.length + 1 = length := hlength
    rw [List.map_cons]
    by_cases hstops : (inChain && continuationCommands.contains t.command && !chainOpen) = true
    · rw [buildBody_continuation rest hstops, buildBody_continuation (s := t.renumber f) _ hstops]
      exact .ok ⟨rfl, rfl, rfl⟩
    by_cases hend : t.command = s.terminator
    · have hend' : t.command = s'.terminator := hend.trans h.terminator.symm
      rw [buildBody_terminator rest hstops hend,
        buildBody_terminator (s := t.renumber f) _ hstops hend']
      exact .ok ⟨rfl, rfl, rfl⟩
    have hend' : t.command ≠ s'.terminator := h.terminator ▸ hend
    have hopens' : s'.opensBlock t.command = s.opensBlock t.command := by
      rw [Settings.opensBlock, Settings.opensBlock, h.blockCommands]
    by_cases hopens : s.opensBlock t.command = true
    · rw [hopens] at hopens'
      by_cases hplaced : (continuationCommands.contains t.command && !chainOpen) = true
      · rw [buildBody_misplaced rest hstops hend hopens hplaced,
          buildBody_misplaced (s := t.renumber f) _ hstops hend' hopens' hplaced]
        exact .fault _
      by_cases hdeep : s.maxDepth ≤ depth
      · rw [buildBody_tooDeep rest hstops hend hopens hplaced hdeep]
        by_cases hsame : s'.maxDepth = s.maxDepth
        · rw [buildBody_tooDeep (s := t.renumber f) _ hstops hend' hopens' hplaced (hsame ▸ hdeep),
            hsame]
          exact .fault _
        · exact .lifted _ hsame
      by_cases hdeep' : s'.maxDepth ≤ depth
      · exact absurd (Nat.le_trans h.maxDepth hdeep') hdeep
      rw [buildBody_opens rest hstops hend hopens hplaced hdeep,
        buildBody_opens (s := t.renumber f) _ hstops hend' hopens' hplaced hdeep']
      refine (ih rest.length (Nat.lt_succ_self _) _ _ _ rest rfl).bind fun inner inner' hinner => ?_
      obtain ⟨body, stop, rest₁, h₁⟩ := inner
      obtain ⟨body', stop', rest₁', h₁'⟩ := inner'
      obtain ⟨hnodes, hstop, hrest⟩ := hinner
      dsimp only at hnodes hstop hrest ⊢
      subst hnodes hstop hrest
      split
      · rw [h.terminator]
        exact .fault _
      · refine (ih rest₁.length (Nat.lt_succ_of_le h₁) _ _ _ rest₁ rfl).map
          fun outer outer' houter => ⟨?_, houter.stop, houter.rest⟩
        rw [houter.nodes]
        rfl
    · have hplain' : ¬s'.opensBlock t.command = true := hopens' ▸ hopens
      rw [buildBody_plain rest hstops hend hopens,
        buildBody_plain (s := t.renumber f) _ hstops hend' hplain']
      refine (ih rest.length (Nat.lt_succ_self _) _ _ _ rest rfl).map
        fun built built' hbuilt => ⟨?_, hbuilt.stop, hbuilt.rest⟩
      rw [hbuilt.nodes]
      rfl

/-! ### Whole programs -/

/-- A program is built from renumbered statements under relaxed settings as it was before. -/
theorem tracks_build (h : s.Relaxes s') (given : List Statement) :
    Tracks s s' f (fun nodes nodes' => nodes' = renumber f nodes) (build s given)
      (build s' (given.map (·.renumber f))) := by
  have hfrom : Tracks s s' f (fun built built' => built'.1 = renumber f built.1 ∧ built'.2 = built.2)
      (buildFrom s given 0 false 0) (buildFrom s' (given.map (·.renumber f)) 0 false 0) := by
    refine (tracks_buildBody h false 0 false given).map fun built built' hbuilt => ⟨hbuilt.nodes, ?_⟩
    dsimp only [List.drop]
    rw [hbuilt.stop, hbuilt.rest, List.length_map, List.length_map]
  refine hfrom.bind fun built built' hbuilt => ?_
  obtain ⟨nodes, stop⟩ := built
  obtain ⟨nodes', stop'⟩ := built'
  obtain ⟨hnodes, hstop⟩ := hbuilt
  dsimp only at hnodes hstop ⊢
  subst hnodes hstop
  rw [List.getElem?_map]
  cases given[stop'.toNat]? with
  | none => exact .ok rfl
  | some t =>
    dsimp only [Option.map]
    rw [h.terminator]
    exact .fault _

end Pipeline.Program
