import Pipeline.Proofs.Faults
import Pipeline.Proofs.Program.Blocks

/-!
# The statements of a program

A body that is built holds exactly the statements in front of what ends it, at any depth and in their
order, but for terminators.  So a program holds no other statements than those it is built from, and a
fault of the builder is on the line of one of them.
-/

namespace Pipeline

mutual

/-- The statements of a node, at any depth. -/
def Node.statements : Node → List Statement
  | .simple s => [s]
  | .block s body => s :: Program.statements body

/-- The statements of nodes, at any depth. -/
def Program.statements : List Node → List Statement
  | [] => []
  | node :: rest => node.statements ++ Program.statements rest

end

theorem Node.statement_mem (node : Node) : node.statement ∈ node.statements := by
  cases node with
  | simple s => exact List.mem_singleton.2 rfl
  | block s body => exact List.mem_cons_self

theorem Node.statements_body {node : Node} {body : List Node} (h : node.body? = some body) :
    ∀ s ∈ Program.statements body, s ∈ node.statements := by
  cases node with
  | simple s => cases h
  | block s body' =>
    cases h
    exact fun t ht => List.mem_cons_of_mem _ ht

namespace Program

theorem mem_statements_cons {node : Node} {rest : List Node} {s : Statement} :
    s ∈ statements (node :: rest) ↔ s ∈ node.statements ∨ s ∈ statements rest := by
  rw [statements, List.mem_append]

/-- Between a body and what comes behind it there is nothing but a terminator, if anything. -/
theorem Ends.exists_closing {settings : Settings} {inChain : Bool} {tail : List Statement}
    {stop : Stop} {rest : List Statement} (h : Ends settings inChain tail stop rest) :
    ∃ closing, tail = closing ++ rest ∧
      closing.filter (·.command != settings.terminator) = [] := by
  cases h with
  | ended => exact ⟨[], rfl, rfl⟩
  | @terminator e _ hterminator => exact ⟨[e], rfl, by simp [hterminator]⟩
  | continuation _ _ => exact ⟨[], rfl, rfl⟩

/-- **What a body takes.**  The statements in front of what ends a body are those of its nodes, in
their order, and terminators. -/
theorem taken_of_buildBody {settings : Settings} {inChain chainOpen : Bool} {depth : Nat}
    {given : List Statement} {nodes : List Node} {stop : Stop} {rest : Rest given}
    (h : buildBody settings inChain depth chainOpen given = .ok (nodes, stop, rest)) :
    ∃ front tail, given = front ++ tail ∧
      front.filter (·.command != settings.terminator) = statements nodes ∧
        Ends settings inChain tail stop rest.val := by
  fun_induction buildBody settings inChain depth chainOpen given generalizing nodes stop with
  | case1 => cases h; exact ⟨[], [], rfl, rfl, .ended⟩
  | case2 inChain depth chainOpen s rest hcontinuation =>
    cases h
    simp only [Bool.and_eq_true] at hcontinuation
    exact ⟨[], _, rfl, rfl, .continuation hcontinuation.1.1 hcontinuation.1.2⟩
  | case3 inChain depth chainOpen s rest _ hterminator =>
    cases h
    exact ⟨[], _, rfl, rfl, .terminator hterminator⟩
  | case4 => cases h
  | case5 => cases h
  | case6 => cases h
  | case7 => cases h
  | case8 => cases h
  | case9 inChain depth chainOpen s rest _ hne _ _ _ body stop₁ rest₁ h₁ _ hbody
      nodes₂ stop₂ rest₂ h₂ hrest ihbody ihrest =>
    cases h
    obtain ⟨front₁, tail₁, hsplit₁, htaken₁, hends₁⟩ := ihbody hbody
    obtain ⟨front₂, tail₂, hsplit₂, htaken₂, hends₂⟩ := ihrest hrest
    obtain ⟨closing, hclosing, hnone⟩ := hends₁.exists_closing
    refine ⟨s :: (front₁ ++ (closing ++ front₂)), tail₂, ?_, ?_, hends₂⟩
    · rw [hsplit₁, hclosing]
      show s :: (front₁ ++ (closing ++ rest₁)) = _
      rw [hsplit₂]
      simp
    · simp [hne, htaken₁, htaken₂, hnone, statements, Node.statements]
  | case10 => cases h
  | case11 inChain depth chainOpen s rest _ hne _ nodes₁ stop₁ rest₁ h₁ hrest ih =>
    cases h
    obtain ⟨front, tail, hsplit, htaken, hends⟩ := ih hrest
    refine ⟨s :: front, tail, ?_, ?_, hends⟩
    · rw [hsplit, List.cons_append]
    · simp [hne, htaken, statements, Node.statements]

/-- The statements behind a body are the last ones that were given. -/
theorem suffix_of_buildBody {settings : Settings} {inChain chainOpen : Bool} {depth : Nat}
    {given : List Statement} {nodes : List Node} {stop : Stop} {rest : Rest given}
    (h : buildBody settings inChain depth chainOpen given = .ok (nodes, stop, rest)) :
    rest.val <:+ given := by
  obtain ⟨front, tail, hsplit, -, hends⟩ := taken_of_buildBody h
  obtain ⟨closing, hclosing, -⟩ := hends.exists_closing
  exact ⟨front ++ closing, by simp [hsplit, hclosing]⟩

/-- The statements of a body and those behind it are among the statements that it is built from. -/
theorem mem_of_buildBody {settings : Settings} {inChain chainOpen : Bool} {depth : Nat}
    {given : List Statement} {nodes : List Node} {stop : Stop} {rest : Rest given}
    (h : buildBody settings inChain depth chainOpen given = .ok (nodes, stop, rest)) :
    (∀ s ∈ statements nodes, s ∈ given) ∧ ∀ s ∈ rest.val, s ∈ given := by
  refine ⟨fun s hs => ?_, fun s hs => (suffix_of_buildBody h).mem hs⟩
  obtain ⟨front, tail, hsplit, htaken, -⟩ := taken_of_buildBody h
  rw [← htaken] at hs
  simp [hsplit, (List.mem_filter.1 hs).1]

/-- A fault of the builder is on the line of a statement. -/
theorem onLine_of_buildBody {settings : Settings} {inChain chainOpen : Bool} {depth : Nat}
    {given : List Statement} {fault : Fault}
    (h : buildBody settings inChain depth chainOpen given = .error fault) :
    ∃ s ∈ given, fault.OnLine s.line := by
  fun_induction buildBody settings inChain depth chainOpen given with
  | case1 => cases h
  | case2 => cases h
  | case3 => cases h
  | case4 => cases h; exact ⟨_, List.mem_cons_self, Fault.onLine_ofLine _ _⟩
  | case5 => cases h; exact ⟨_, List.mem_cons_self, Fault.onLine_ofLine _ _⟩
  | case6 inChain depth chainOpen s rest _ _ _ _ _ fault' hfault ih =>
    cases h
    obtain ⟨t, ht, hline⟩ := ih hfault
    exact ⟨t, List.mem_cons_of_mem _ ht, hline⟩
  | case7 => cases h; exact ⟨_, List.mem_cons_self, Fault.onLine_ofLine _ _⟩
  | case8 inChain depth chainOpen s rest _ _ _ _ _ body stop₁ rest₁ h₁ _ hbody fault' hfault _ ih =>
    cases h
    obtain ⟨t, ht, hline⟩ := ih hfault
    exact ⟨t, List.mem_cons_of_mem _ ((mem_of_buildBody hbody).2 t ht), hline⟩
  | case9 => cases h
  | case10 inChain depth chainOpen s rest _ _ _ fault' hfault ih =>
    cases h
    obtain ⟨t, ht, hline⟩ := ih hfault
    exact ⟨t, List.mem_cons_of_mem _ ht, hline⟩
  | case11 => cases h

/-- A program is built of the statements that are given, or there is a fault on the line of one. -/
theorem build_sound (settings : Settings) (given : List Statement) :
    match build settings given with
    | .ok nodes => ∀ s ∈ statements nodes, s ∈ given
    | .error fault => ∃ s ∈ given, fault.OnLine s.line := by
  have hdrop : given.drop 0 = given := List.drop_zero
  cases hbuild : build settings given with
  | ok nodes =>
    obtain ⟨⟨built, stop⟩, hfrom, hbuild⟩ := exists_of_bind_eq_ok hbuild
    obtain ⟨⟨built', reason, rest⟩, hbody, heq⟩ := exists_of_map_eq_ok hfrom
    cases heq
    dsimp only at hbuild
    split at hbuild
    · cases hbuild
    · cases hbuild
      exact fun s hs => hdrop ▸ (mem_of_buildBody hbody).1 s hs
  | error fault =>
    rcases eq_error_or_of_bind hbuild with hfrom | ⟨⟨built, stop⟩, -, hbuild⟩
    · exact hdrop ▸ onLine_of_buildBody (eq_error_of_map hfrom)
    · dsimp only at hbuild
      split at hbuild
      · next s hs =>
        cases hbuild
        exact ⟨s, List.mem_of_getElem? hs, Fault.onLine_ofLine _ _⟩
      · cases hbuild

end Program

end Pipeline
