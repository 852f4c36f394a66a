import Apivuln.Http1.Lifecycle

/-!
# The runner over whole runs

Between `new` and `finish` a caller may make the runner's public calls in any
order, and the transport may do anything in between. `Reachable` holds of every
world a runner gets to that way, whether the last call returned, panicked or
was left waiting. Over all of them the runner keeps the output lifecycle, and
since no call moves it to a receiving state it never records a response.
Every call leaves the state where it was or further along the order `Pending`,
`StartFailed`, the sending states, the receiving states, `Complete`, `Invalid`.
`Invalid` is therefore final, and it is reachable by a call that returns:
`start` from any state but `Pending` takes the state out and returns an error
without putting it back, and every later `finish` panics.

`execute` on a fresh runner is a fixed sequence: start the transport, write the
header, write the body, flush, read. The transport's script decides where the
sequence stops, and each way it can stop is a way `execute` ends: an error
recorded and returned, a wait that never ends, or a panic. Because the read
polls a runner still in `SendingBody`, no script lets it return cleanly, and
the panic in the read comes only after the transport has taken exactly the
header block followed by the body.
-/

namespace Apivuln.Http1

open Exec (Keeps keeps_pure keeps_panic keeps_bind)

variable {τ : Type}

structure Quiet (r : Http1Runner τ) : Prop where
  idle : ¬ r.state.Receiving
  noResponse : r.out.response = none

theorem quiet_new (t : τ) (p : Http1PlanOutput) : Quiet (new t p) := ⟨id, rfl⟩

theorem Frames.keeps_quiet {α : Type} {x : M τ α} (hx : Frames x) :
    Keeps (fun w => Quiet w.runner) x :=
  hx.keeps fun _ _ hf h => ⟨hf.state ▸ h.idle, hf.response ▸ h.noResponse⟩

theorem quiet_recordOutputs (startTime : Nat) (t : τ) (w : World τ) (hw : Quiet w.runner) :
    Quiet (recordOutputs startTime t w).world.runner := by
  have hn := hw.noResponse
  cases he : w.runner.endTime <;>
  · simp only [recordOutputs, Exec.bind_apply, getRunner, now, he, hn, modifyOut, modifyRunner,
      setState, Exec.pure_apply, Outcome.world]
    exact ⟨id, rfl⟩

theorem keeps_quiet_complete : Keeps (fun w => Quiet w.runner) (complete (τ := τ)) := by
  refine leads_takeState_bind (fun _ w => Quiet w.runner) (fun _ hw => ⟨id, hw.noResponse⟩)
    fun st => ?_
  cases st with
  | complete t | pending _ t | startFailed t =>
    exact leads_modifyRunner fun _ h => ⟨id, h.noResponse⟩
  | sendingHeader s p | sendingBody s p | receivingHeader s p | receivingBody s p =>
    exact quiet_recordOutputs _ _
  | invalid => exact keeps_panic _

theorem keeps_quiet_enterBody (h : Option Nat) :
    Keeps (fun w => Quiet w.runner) (enterBody (τ := τ) h) := by
  refine leads_takeState_bind (fun _ w => Quiet w.runner) (fun _ hw => ⟨id, hw.noResponse⟩)
    fun st => ?_
  cases st with
  | sendingHeader st tr =>
    refine keeps_bind frames_getRunner.keeps_quiet fun _ =>
      keeps_bind (frames_bodyPauses _ _).keeps_quiet fun
        | .error _ => keeps_pure _
        | .ok _ => keeps_bind (leads_modifyRunner fun _ h => ⟨id, h.noResponse⟩) fun _ =>
            keeps_bind (leads_modifyRunner fun _ h => ⟨h.idle, h.noResponse⟩) fun _ => keeps_pure _
  | _ => exact keeps_panic _

theorem keeps_quiet_start (h : Option Nat) :
    Keeps (fun w => Quiet w.runner) (start (τ := τ) h) := by
  refine leads_takeState_bind (fun _ w => Quiet w.runner) (fun _ hw => ⟨id, hw.noResponse⟩)
    fun st => ?_
  cases st with
  | pending header transport =>
    exact keeps_bind frames_transportStart.keeps_quiet fun
      | .error _ => keeps_bind (frames_setError _ _).keeps_quiet fun _ =>
          keeps_bind (leads_modifyRunner fun _ h => ⟨id, h.noResponse⟩) fun _ =>
          keeps_bind keeps_quiet_complete fun _ => keeps_pure _
      | .ok () =>
        keeps_bind frames_now.keeps_quiet fun _ => keeps_bind frames_getRunner.keeps_quiet fun _ =>
        keeps_bind (leads_modifyRunner fun _ h => ⟨id, h.noResponse⟩) fun _ =>
        keeps_bind frames_now.keeps_quiet fun _ =>
        keeps_bind (leads_modifyRunner fun _ h => ⟨h.idle, h.noResponse⟩) fun _ =>
        keeps_bind (frames_writeAllAt _).keeps_quiet fun
          | .error _ => keeps_pure _
          | .ok () => keeps_quiet_enterBody h
  | _ => exact keeps_pure _

theorem keeps_quiet_pollRead (parse : Parser) (cap : Nat) :
    Keeps (fun w => Quiet w.runner) (pollRead (τ := τ) parse cap) :=
  fun w hw => by rw [pollRead_idle parse cap hw.idle]; exact hw

/-- The worlds a runner reaches from `new`, by calls that return, panic or are left waiting, and
by any change of what the transport does next. -/
inductive Reachable (parse : Parser) : World τ → Prop
  | new (t : τ) (p : Http1PlanOutput) (env : Env) : Reachable parse ⟨new t p, env⟩
  | call {w : World τ} (c : Call) : Reachable parse w → Reachable parse (c.run parse w).world
  | env {w : World τ} (e : Env) : Reachable parse w → Reachable parse ⟨w.runner, e⟩

theorem Reachable.quiet {parse : Parser} {w : World τ} (h : Reachable parse w) :
    Quiet w.runner := by
  induction h with
  | new t p env => exact quiet_new t p
  | call c _ ih =>
    exact keeps_run Frames.keeps_quiet parse (keeps_quiet_pollRead parse) keeps_quiet_start
      keeps_quiet_complete c _ ih
  | env e _ ih => exact ih

def State.phase : State τ → Nat
  | .pending _ _ => 0
  | .startFailed _ => 1
  | .sendingHeader _ _ => 2
  | .sendingBody _ _ => 3
  | .receivingHeader _ _ => 4
  | .receivingBody _ _ => 5
  | .complete _ => 6
  | .invalid => 7

theorem State.phase_le (s : State τ) : s.phase ≤ 7 := by
  cases s <;> simp only [State.phase] <;> omega

theorem State.eq_invalid_of_phase {s : State τ} (h : 7 ≤ s.phase) : s = .invalid := by
  cases s with
  | invalid => rfl
  | _ => simp only [State.phase] at h; omega

section Phase

variable (k : Nat)

theorem Frames.keeps_phase {α : Type} {x : M τ α} (hx : Frames x) :
    Keeps (fun w => k ≤ w.runner.state.phase) x :=
  hx.keeps (P := fun r => k ≤ r.state.phase) fun _ _ hf h => by dsimp only; rw [hf.state]; exact h

theorem phase_of_taken {st : State τ} {w : World τ}
    (h : k ≤ st.phase ∧ w.runner.state = .invalid) : k ≤ w.runner.state.phase := by
  rw [h.2]
  exact h.1.trans (State.phase_le _)

theorem keeps_phase_start (h : Option Nat) :
    Keeps (fun w => k ≤ w.runner.state.phase) (start (τ := τ) h) := by
  refine leads_takeState_bind (fun st w => k ≤ st.phase ∧ w.runner.state = .invalid)
    (fun _ h => ⟨h, rfl⟩) fun st => ?_
  cases st with
  | pending header transport =>
    intro _ h
    obtain rfl : k = 0 := Nat.le_zero.mp h.1
    exact Nat.zero_le _
  | _ => exact fun _ h => phase_of_taken k h

theorem keeps_phase_complete : Keeps (fun w => k ≤ w.runner.state.phase) (complete (τ := τ)) := by
  refine leads_takeState_bind (fun st w => k ≤ st.phase ∧ w.runner.state = .invalid)
    (fun _ h => ⟨h, rfl⟩) fun st => ?_
  cases st with
  | complete t | pending _ t | startFailed t =>
    exact leads_modifyRunner fun _ h => h.1.trans (Nat.le_of_ble_eq_true rfl)
  | sendingHeader s p | sendingBody s p | receivingHeader s p | receivingBody s p =>
    refine fun w h => ?_
    rcases recordOutputs_state s p.inner w with he | he <;> rw [he]
    · exact h.1.trans (Nat.le_of_ble_eq_true rfl)
    · exact phase_of_taken k h
  | invalid => exact fun _ h => phase_of_taken k h

theorem keeps_phase_pollRead (parse : Parser) (cap : Nat) :
    Keeps (fun w => k ≤ w.runner.state.phase) (pollRead (τ := τ) parse cap) := by
  intro w h
  simp only [pollRead, Exec.bind_apply, takeState, Exec.scopeGuard_world]
  exact h

end Phase

/-- Every call, however it ends and whatever the transport does, leaves the runner's state where
it was or further along; in particular a runner left `Invalid` stays `Invalid`. -/
theorem state_never_moves_back (parse : Parser) (c : Call) (w : World τ) :
    w.runner.state.phase ≤ (c.run parse w).world.runner.state.phase ∧
      (w.runner.state = .invalid → (c.run parse w).world.runner.state = .invalid) :=
  have hle := keeps_run (Frames.keeps_phase w.runner.state.phase) parse
    (keeps_phase_pollRead _ parse) (keeps_phase_start _) (keeps_phase_complete _) c w le_rfl
  ⟨hle, fun hi => State.eq_invalid_of_phase (by simpa [hi, State.phase] using hle)⟩

/-! ## Returns that leave the runner `Invalid` -/

/-- `start` from any state but `Pending` returns an error and leaves the runner `Invalid`, after
which `finish` panics. -/
theorem start_outside_pending_invalidates (h : Option Nat) (w : World τ)
    (hs : ∀ header t, w.runner.state ≠ .pending header t) :
    start h w = .ret (.error "attempt to start Http1Runner from invalid state")
        { w with runner := { w.runner with state := .invalid } } ∧
      finish (τ := τ) { w with runner := { w.runner with state := .invalid } } =
        .panic "explicit panic" { w with runner := { w.runner with state := .invalid } } := by
  refine ⟨?_, rfl⟩
  cases hw : w.runner.state with
  | pending header t => exact absurd hw (hs header t)
  | _ => simp only [start, Exec.bind_apply, takeState, hw, Exec.pure_apply]

def refusedEnv : Env := { scriptEnv [] [] [] with started := .error "connection refused" }

def completedWorld : World Unit := (start (some 0) ⟨new () rootPlan, refusedEnv⟩).world

theorem restart_completed_invalidates :
    (∀ header t, completedWorld.runner.state ≠ .pending header t) ∧
      start none completedWorld = .ret (.error "attempt to start Http1Runner from invalid state")
          { completedWorld with runner := { completedWorld.runner with state := .invalid } } ∧
        finish (τ := Unit)
            { completedWorld with runner := { completedWorld.runner with state := .invalid } } =
          .panic "explicit panic"
            { completedWorld with runner := { completedWorld.runner with state := .invalid } } :=
  have hc : completedWorld.runner.state = .complete () := rfl
  have hs : ∀ header t, completedWorld.runner.state ≠ .pending header t := by simp [hc]
  ⟨hs, start_outside_pending_invalidates none completedWorld hs⟩

/-! ## What a fresh runner's transport sees -/

/-- `execute` on a fresh runner, whatever its transport does, ends in one of four ways: it
returns with an error recorded, which the output of `finish` then carries; it panics in
`read_to_end` once the transport has taken exactly the header followed by the body; it panics
converting a body length of `2^63` or more; or it waits forever. No transport makes it return
without an error. -/
theorem execute_new_cases (parse : Parser) (t : τ) (p : Http1PlanOutput) (env : Env) :
    (∃ w', execute parse ⟨new t p, env⟩ = .ret () w' ∧ ∃ e, w'.runner.out.error = some e ∧
      ∃ o t' w'', finish w' = .ret (o, t') w'' ∧ o.error = some e) ∨
    (∃ w', execute parse ⟨new t p, env⟩ = .panic "explicit panic" w' ∧
      w'.env.sent = env.sent ++ (computeHeader p ++ p.body)) ∨
    (2 ^ 63 ≤ p.body.length ∧ ∃ w', execute parse ⟨new t p, env⟩ =
      .panic "called `Result::unwrap()` on an `Err` value: TryFromIntError(())" w') ∨
    ∃ w', execute parse ⟨new t p, env⟩ = .stall w' := by
  have hr : Reachable parse (Call.execute.run parse ⟨new t p, env⟩).world :=
    .call .execute (.new t p env)
  have hq : (execute parse ⟨new t p, env⟩).world.runner.out.response = none :=
    hr.quiet.noResponse
  generalize ho : execute parse ⟨new t p, env⟩ = o at hq
  have returned : ∀ w', Outcome.ret () w' = o → w'.runner.out.error.isSome →
      (w'.runner.state.Sending ∨ ∃ t', w'.runner.state = .complete t') →
      ∃ e, w'.runner.out.error = some e ∧
        ∃ o t' w'', finish w' = .ret (o, t') w'' ∧ o.error = some e := by
    rintro w' rfl he hs
    obtain ⟨e, he⟩ := Option.isSome_iff_exists.mp he
    obtain ⟨o, t', w'', hf, hoe⟩ := finish_error hq hs
    exact ⟨e, he, o, t', w'', hf, hoe.trans he⟩
  simp only [execute, Exec.bind_apply, getRunner, new_out] at ho
  rcases start_new_cases t p env p.body.length with ⟨e, w₁, h, hs⟩ |
    ⟨w₁, h, ⟨st, ps, hst⟩, hplan, hsent⟩ | ⟨hle, w₁, h⟩ | ⟨w₁, h⟩ <;> rw [h] at ho
  · simp only [setError, modifyOut, modifyRunner] at ho
    exact .inl ⟨_, ho.symm, returned _ ho rfl hs⟩
  · have hs : w₁.runner.state.Sending := by rw [hst]; trivial
    rcases sendBody_cases hs with ⟨e, w₂, h₂, hst₂⟩ | ⟨w₂, h₂, hst₂, hsent₂⟩ | ⟨w₂, h₂⟩ <;>
      simp only [Exec.bind_apply, h₂] at ho
    · simp only [setError, modifyOut, modifyRunner] at ho
      exact .inl ⟨_, ho.symm, returned _ ho rfl (.inl (hst₂ ▸ hs))⟩
    · rcases flushAndRead_cases parse (hst₂ ▸ hs) with ⟨w₃, h₃, hst₃, e, he⟩ |
        ⟨w₃, h₃, hsent₃⟩ | ⟨w₃, h₃⟩ <;> rw [h₃] at ho
      · exact .inl ⟨_, ho.symm, returned _ ho (by simp [he])
          (.inl (by rw [hst₃, hst₂]; exact hs))⟩
      · refine .inr (.inl ⟨_, ho.symm, ?_⟩)
        rw [hsent₃, hsent₂, hsent, hplan, List.append_assoc]
      · exact .inr (.inr (.inr ⟨_, ho.symm⟩))
    · exact .inr (.inr (.inr ⟨_, ho.symm⟩))
  · exact .inr (.inr (.inl ⟨hle, _, ho.symm⟩))
  · exact .inr (.inr (.inr ⟨_, ho.symm⟩))

end Apivuln.Http1
