import Pipeline.Proofs.Execution.Lockstep

/-!
# The control state

An execution leaves the frames and the number of running calls exactly as it found them, however it
ends: the frames and the calls it opens are closed on every way out, and the frames it found are never
touched.  Nor are they seen: in two environments that differ only in the frames that were open before,
an execution does the same.  Only the handler that gives the depths sees them, and only how many there
are.

Both facts are one, `lockstep_apart`: frames below those opened since the start may differ.
-/

namespace Pipeline

/-- Two environments that differ only in the frames below the `n` that were opened since the start,
where `c` more calls are running than at the start. -/
def Environment.Apart (below below' : List (Option Bool)) (start : Int) (n c : Nat)
    (env env' : Environment) : Prop :=
  ∃ opened, opened.length = n ∧ env.frames = opened ++ below ∧
    env' = { env with frames := opened ++ below' } ∧ env.callDepth = start + c

/-- No command of a registry gives the depths. -/
def Registry.HidesDepths (registry : Registry) : Prop :=
  ∀ name, registry.find? name ≠ some (.host .depths)

namespace Environment

variable {env : Environment} {state : Option Bool} {frames : List (Option Bool)}

theorem chain_of_frames (h : env.frames = state :: frames) : env.chain = state := by
  rw [chain, h]
  rfl

theorem setChain_of_frames (h : env.frames = state :: frames) (next : Option Bool) :
    env.setChain next = { env with frames := next :: frames } := by
  rw [setChain, h]

end Environment

theorem hidesDepths_standard : Registry.standard.HidesDepths := by
  intro name h
  obtain ⟨command, -, hcommand⟩ := Registry.find?_standard h
  cases hcommand

/-- Frames that were open before the start keep two runs in lockstep, whatever they hold. -/
theorem lockstep_apart {setup : Setup} {below below' : List (Option Bool)} (start : Int)
    (hdepths : below.length = below'.length ∨ setup.registry.HidesDepths) :
    Lockstep setup (Environment.Apart below below' start) where
  bindings := by rintro n c env env' ⟨opened, -, -, rfl, -⟩; rfl
  functions := by rintro n c env env' ⟨opened, -, -, rfl, -⟩; rfl
  store := by rintro n c env env' ⟨opened, -, -, rfl, -⟩; rfl
  callDepth := by rintro n c env env' ⟨opened, -, -, rfl, -⟩; rfl
  chain := by
    rintro n c env env' ⟨_ | ⟨state, opened⟩, hn, hframes, rfl, -⟩
    · cases hn
    · rw [Environment.chain_of_frames hframes, Environment.chain_of_frames rfl]
  depth := by
    rintro n c env env' name hfind ⟨opened, -, hframes, rfl, -⟩
    have hlength : below.length = below'.length := hdepths.resolve_right fun h => h name hfind
    simp only [Environment.depth, hframes, List.length_append, hlength]
  change := by
    rintro n c env env' x ⟨opened, hn, hframes, rfl, hc⟩
    cases x <;> exact ⟨opened, hn, hframes, rfl, hc⟩
  setChain := by
    rintro n c env env' state ⟨_ | ⟨_, opened⟩, hn, hframes, rfl, hc⟩
    · cases hn
    · rw [Environment.setChain_of_frames hframes, Environment.setChain_of_frames rfl]
      exact ⟨state :: opened, hn, rfl, rfl, hc⟩
  pushFrame := by
    rintro n c env env' ⟨opened, hn, hframes, rfl, hc⟩
    exact ⟨none :: opened, congrArg (· + 1) hn, congrArg (none :: ·) hframes, rfl, hc⟩
  popFrame := by
    rintro n c env env' ⟨_ | ⟨state, opened⟩, hn, hframes, rfl, hc⟩
    · cases hn
    · exact ⟨opened, Nat.succ.inj hn, congrArg List.tail hframes, rfl, hc⟩
  startCall := by
    rintro n c env env' ⟨opened, hn, hframes, rfl, hc⟩
    refine ⟨opened, hn, hframes, rfl, ?_⟩
    dsimp only
    omega
  endCall := by
    rintro n c env env' ⟨opened, hn, hframes, rfl, hc⟩
    refine ⟨opened, hn, hframes, rfl, ?_⟩
    dsimp only
    omega

/-! ### Frames that are left alone -/

section Marks

variable {setup : Setup} {α : Type} {m : Exec α} {env : Environment} {mark : Option Bool}
  {below : List (Option Bool)}

/-- A computation that keeps every lockstep leaves the frames below the innermost one alone. -/
theorem exists_mark_of_agrees (hm : ∀ {R}, Lockstep setup R → Exec.Agrees (R 1 0) m)
    (h : env.frames = mark :: below) : ∃ mark', (m env).2.frames = mark' :: below := by
  have hsame : env = { env with frames := mark :: below } := by rw [← h]
  have hstart : Environment.Apart below below env.callDepth 1 0 env env :=
    ⟨[mark], rfl, h, hsame, (Int.add_zero _).symm⟩
  obtain ⟨-, opened, hopened, hframes, -, -⟩ :=
    hm (lockstep_apart env.callDepth (.inl rfl)) env env hstart
  obtain ⟨mark', rfl⟩ := List.length_eq_one_iff.1 hopened
  exact ⟨mark', hframes⟩

/-- One that does so without a frame of its own leaves the innermost frame alone, too. -/
theorem frames_of_agrees (hm : ∀ {R}, Lockstep setup R → Exec.Agrees (R 0 0) m) (env : Environment) :
    (m env).2.frames = env.frames := by
  have hstart : Environment.Apart env.frames env.frames env.callDepth 0 0 env env :=
    ⟨[], rfl, rfl, rfl, (Int.add_zero _).symm⟩
  obtain ⟨-, opened, hopened, hframes, -, -⟩ :=
    hm (lockstep_apart env.callDepth (.inl rfl)) env env hstart
  obtain rfl := List.length_eq_zero_iff.1 hopened
  exact hframes

end Marks

/-! ### Executions -/

variable (setup : Setup) (nodes : List Node) (value : Value) (env : Environment)

theorem apart_execute (frames : List (Option Bool))
    (hdepths : env.frames.length = frames.length ∨ setup.registry.HidesDepths) :
    (execute setup nodes value env).1 = (execute setup nodes value { env with frames := frames }).1 ∧
      Environment.Apart env.frames frames env.callDepth 0 0 (execute setup nodes value env).2
        (execute setup nodes value { env with frames := frames }).2 := by
  have hstart : Environment.Apart env.frames frames env.callDepth 0 0 env
      { env with frames := frames } := ⟨[], rfl, rfl, rfl, (Int.add_zero _).symm⟩
  exact (lockstep_apart env.callDepth hdepths).execute 0 0 nodes value _ _ hstart

/-- Execution leaves the frames and the number of running calls exactly as it found them, whether it
returns or fails, and does not see what the frames hold that it found. -/
theorem execute_control :
    (execute setup nodes value env).2.frames = env.frames ∧
      (execute setup nodes value env).2.callDepth = env.callDepth ∧
      (setup.registry.HidesDepths → ∀ frames,
        execute setup nodes value { env with frames := frames } =
          ((execute setup nodes value env).1,
            { (execute setup nodes value env).2 with frames := frames })) := by
  obtain ⟨-, opened, hopened, hframes, -, hdepth⟩ :=
    apart_execute setup nodes value env env.frames (.inl rfl)
  refine ⟨?_, ?_, fun hdepths frames => ?_⟩
  · rw [hframes, List.length_eq_zero_iff.1 hopened, List.nil_append]
  · exact hdepth.trans (Int.add_zero _)
  · obtain ⟨hresult, opened, hopened, -, hleft, -⟩ :=
      apart_execute setup nodes value env frames (.inr hdepths)
    rw [List.length_eq_zero_iff.1 hopened, List.nil_append] at hleft
    exact Prod.ext hresult.symm hleft

/-- A division by zero inside a call, a branch and a loop leaves both frames and the call that were
there, and fails in the same way where no frame is open. -/
theorem execute_control_division :
    let nodes : List Node :=
      [.block ⟨1, "foreach", []⟩ [.block ⟨2, "if", [.operand ⟨.number, "1"⟩]⟩
        [.simple ⟨3, "call", [.operand ⟨.variable, "f"⟩]⟩]]]
    let body : List Node :=
      [.simple ⟨4, "set", [.binary "/" (.operand ⟨.number, "1"⟩) (.operand ⟨.number, "0"⟩)]⟩]
    let env : Environment :=
      { functions := { entries := [("f", body)] }, store := { lists := #[#[.number 1, .nothing]] },
        frames := [some true, none], callDepth := 1 }
    Registry.standard.HidesDepths ∧
      (execute {} nodes (.list 0) env).1 =
        .error (.script .divisionByZero (.ofArgument 4 0)) ∧
      (execute {} nodes (.list 0) env).2.frames = [some true, none] ∧
      (execute {} nodes (.list 0) env).2.callDepth = 1 ∧
      execute {} nodes (.list 0) { env with frames := [] } =
        ((execute {} nodes (.list 0) env).1,
          { (execute {} nodes (.list 0) env).2 with frames := [] }) := by
  intro nodes body env
  obtain ⟨hframes, hdepth, hunseen⟩ := execute_control {} nodes (.list 0) env
  exact ⟨hidesDepths_standard, rfl, hframes, hdepth, hunseen hidesDepths_standard []⟩

end Pipeline
