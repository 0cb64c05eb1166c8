import Pipeline.Proofs.Execution.Limits
import Pipeline.Proofs.Session.Steps

/-!
# Limits of runs

A session runs a source only if its program keeps the limit on blocks, and calls are counted while they
are running.  So the environment that a handler is called with is bounded by the settings, whatever the
source is and however it redefines its functions while they are running.

* `nesting_le_of_parse` : programs that are read.
* `limits_bound` : what a handler finds, and when a call is refused.
-/

namespace Pipeline

/-- The machine a number of steps later, unless it has come to its end before. -/
def Machine.after? (setup : Setup) : (steps : Nat) → Machine → Option Machine
  | 0, m => some m
  | steps + 1, m => (m.step? setup).bind (Machine.after? setup steps)

theorem Machine.exists_takes_of_after? {setup : Setup} {steps : Nat} {m last : Machine}
    (h : m.after? setup steps = some last) : ∃ calls, Takes setup calls m last := by
  induction steps generalizing m with
  | zero =>
    obtain rfl : m = last := Option.some.inj h
    exact ⟨0, .refl m⟩
  | succ steps ih =>
    obtain ⟨next, hstep, hrest⟩ := Option.bind_eq_some_iff.1 h
    obtain ⟨calls, htakes⟩ := ih hrest
    exact ⟨_, .step hstep htakes⟩

namespace Session

open Machine

section

variable {files : FileSystem} {traced : Bool} {source : Source} {nodes : List Node}

/-- The states of a run can be computed. -/
theorem visits_of_after? {session : Session} {steps : Nat} {m : Machine}
    (hload : (session.load files source).1 = .ok nodes)
    (h : (Machine.start nodes .nothing (fresh nodes)).after? (session.setup files traced) steps =
      some m) : session.Visits files traced source m := by
  obtain ⟨calls, htakes⟩ := exists_takes_of_after? h
  exact ⟨nodes, calls, hload, htakes⟩

theorem nesting_le_of_parse {settings : Settings} (h : parse files settings source = .ok nodes) :
    Program.nesting nodes ≤ settings.maxDepth := by
  obtain ⟨text, -, h⟩ := exists_of_bind_eq_ok h
  obtain ⟨statements, -, h⟩ := exists_of_bind_eq_ok h
  exact Program.nesting_le_of_build h

/-- Every state of a run that has not met a fault keeps within the limits. -/
theorem Visits.bounded {session : Session} {m : Machine} (h : session.Visits files traced source m)
    (hm : m.Unfailed) : m.Bounded session.settings := by
  obtain ⟨nodes, calls, hload, htakes⟩ := h
  rw [fst_load] at hload
  have hstart : (Machine.start nodes .nothing (fresh nodes)).Bounded session.settings :=
    bounded_start (nesting_le_of_parse hload) rfl rfl rfl
  exact bounded_takes hstart htakes hm

end

/-- **The limits bound a run.**  Whenever a handler is called in the run of a source, the number of
running calls is the number of calls that have not ended yet, it is no more than the settings allow, and
the frames that are open are at most one for the program and, for it and for each running call, as many
as blocks may be nested.  A call of a function that is defined is refused exactly when as many calls are
running as the settings allow; else its body is run.  The last state has the result and the environment of
the run, and a call that is refused is how the run ends. -/
theorem limits_bound (settings : Settings) (files : FileSystem) (traced : Bool) (source : Source) :
    let session := Session.start settings .standard
    let setup := session.setup files traced
    let ran := session.runSource files traced source
    (∀ nodes, (session.load files source).1 = .ok nodes →
      ∃ last, session.EndsIn files traced source last) ∧
    ∀ m, session.Visits files traced source m → m.callsHandler setup = true →
      m.env.callDepth = running m.tasks ∧ running m.tasks ≤ settings.maxCallDepth ∧
        1 ≤ m.env.depth ∧ m.env.depth ≤ 1 + settings.maxDepth * (running m.tasks + 1) ∧
        ∀ node rest value line name body, m.control = .run (node :: rest) value →
          node.statement = ⟨line, "call", [.operand ⟨.variable, name⟩]⟩ →
          m.env.functions.find? name = some body →
          (∃ next, m.step? setup = some next ∧
            next.control =
              if running m.tasks = settings.maxCallDepth then
                .result (.error (.script (.callsTooDeep settings.maxCallDepth) (.ofLine line)))
              else .run body value) ∧
          (running m.tasks = settings.maxCallDepth →
            ran.1 = .error (.script (.callsTooDeep settings.maxCallDepth) (.ofLine line))) := by
  intro session setup ran
  refine ⟨fun nodes => exists_endsIn traced, fun m hvisits hcalls => ?_⟩
  have hunfailed : m.Unfailed := by
    intro fault hfault
    rw [callsHandler, hfault] at hcalls
    cases hcalls
  obtain ⟨hcallDepth, hrunning, hframe, hdepth⟩ :=
    (hvisits.bounded hunfailed).of_callsHandler hcalls
  refine ⟨hcallDepth, hrunning, hframe, hdepth, ?_⟩
  intro node rest value line name body hcontrol hnode hrecorded
  obtain ⟨control, tasks, env⟩ := m
  obtain rfl : control = .run (node :: rest) value := hcontrol
  have hstandard : Registry.standard.find? "call" = some (.standard .call) := by decide
  have hfind : setup.registry.find? "call" = some (.standard .call) := hstandard
  obtain ⟨next, hstep, hnext⟩ := step?_call hfind hnode hrecorded
  have hlimit : setup.settings.maxCallDepth = settings.maxCallDepth := rfl
  rw [hlimit, hcallDepth] at hnext
  by_cases hfull : running tasks = settings.maxCallDepth
  · rw [if_pos (Int.ofNat_le.2 hfull.ge)] at hnext
    refine ⟨⟨next, hstep, ?_⟩, fun _ => hvisits.runSource_of_raised hstep hnext⟩
    rw [if_pos hfull]
    exact hnext
  · have hroom : running tasks < settings.maxCallDepth := Nat.lt_of_le_of_ne hrunning hfull
    rw [if_neg (Int.not_le.2 (Int.ofNat_lt.2 hroom))] at hnext
    refine ⟨⟨next, hstep, ?_⟩, fun h => absurd h hfull⟩
    rw [if_neg hfull]
    exact hnext

/-- A function that calls itself is refused its second call where one may run: two frames are open, and
the run ends on the line of this call. -/
theorem limits_bound_recursion :
    let limited : Settings := { maxCallDepth := 1 }
    let files : FileSystem := fun _ => .error .missing
    let session := Session.start limited .standard
    let setup := session.setup files false
    let source : Source := .text "function $f\ncall $f\nend\ncall $f"
    (∃ m next, session.Visits files false source m ∧
      m.callsHandler setup = true ∧ m.env.callDepth = 1 ∧ running m.tasks = 1 ∧ m.env.depth = 2 ∧
      m.env.depth ≤ 1 + limited.maxDepth * (1 + 1) ∧ m.step? setup = some next ∧
      next.control = .result (.error (.script (.callsTooDeep 1) (.ofLine 2)))) ∧
    (∃ last, session.EndsIn files false source last) ∧
    (session.runSource files false source).1 = .error (.script (.callsTooDeep 1) (.ofLine 2)) := by
  intro limited files session setup source
  let inside : Node := .simple ⟨2, "call", [.operand ⟨.variable, "f"⟩]⟩
  let program : List Node := [.block ⟨1, "function", [.operand ⟨.variable, "f"⟩]⟩ [inside],
    .simple ⟨4, "call", [.operand ⟨.variable, "f"⟩]⟩]
  have hload : (session.load files source).1 = .ok program := by
    have hlines : Statement.readLines limited
        (Text.lines "function $f\ncall $f\nend\ncall $f".toList) =
          .ok [⟨1, "function", [.operand ⟨.variable, "f"⟩]⟩, ⟨2, "call", [.operand ⟨.variable, "f"⟩]⟩,
            ⟨3, "end", []⟩, ⟨4, "call", [.operand ⟨.variable, "f"⟩]⟩] := by decide +kernel
    have hbranches : Program.HasBranches limited := by constructor <;> decide
    have hcall : Program.WellFormed limited false [inside] := .simple rfl (by decide) (.nil _)
    have hwf : Program.WellFormed limited false program :=
      .block rfl (by decide) (fun h => absurd h (by decide)) hcall (.simple rfl (by decide) (.nil _))
    have hsettings : session.settings = limited := settings_start_standard rfl
    refine fst_load_text (hsettings ▸ hlines) ?_
    rw [hsettings]
    exact Program.build_of_wellFormed hbranches hwf (by decide) (by decide)
  -- The function is recorded in three steps, and the fourth one calls it.
  have hafter : (Machine.start program .nothing (fresh program)).after? setup 4 = some _ := rfl
  have hvisits := visits_of_after? hload hafter
  obtain ⟨hends, hbounded⟩ := limits_bound limited files false source
  obtain ⟨hcallDepth, -, -, hdepth, hcall⟩ := hbounded _ hvisits rfl
  obtain ⟨⟨next, hstep, hnext⟩, hrefused⟩ := hcall inside [] .nothing 2 "f" [inside] rfl rfl rfl
  exact ⟨⟨_, next, hvisits, rfl, hcallDepth, rfl, rfl, hdepth, hstep, hnext⟩,
    hends program hload, hrefused rfl⟩

end Session

end Pipeline
